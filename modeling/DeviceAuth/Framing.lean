import DeviceAuth.Bytes
import DeviceAuth.Failure

namespace DeviceAuth.Framing

def component (c : Bytes) : Bytes :=
  Bytes.bigEndian 4 c.length ++ c

def join (cs : List Bytes) : Bytes :=
  cs.flatMap component

def split : Bytes → Except FormatFault (List Bytes)
  | [] => .ok []
  | a :: b :: c :: d :: rest =>
      let n := Bytes.ofBigEndian [a, b, c, d]
      if rest.length < n then .error (.componentLength n rest.length)
      else (split (rest.drop n)).map (rest.take n :: ·)
  | _ => .error .truncatedLength
termination_by b => b.length
decreasing_by
  simp only [List.length_drop, List.length_cons]
  omega

@[simp] theorem join_nil : join [] = [] := rfl

@[simp] theorem join_cons (c : Bytes) (cs : List Bytes) :
    join (c :: cs) = Bytes.bigEndian 4 c.length ++ (c ++ join cs) := by
  simp [join, component]

end DeviceAuth.Framing
