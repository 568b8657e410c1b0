import Mathlib.Tactic.IntervalCases
import DeviceAuth.Proofs.Except
import DeviceAuth.ServerStatus

namespace DeviceAuth.ServerStatus

theorem State.ofNumber?_number (s : State) : State.ofNumber? s.number = some s := by
  cases s <;> rfl

theorem version_number (v : Version) : version v.number = .ok v := by
  cases v <;> rfl

theorem upgrade_number (v : Option Version) :
    upgrade ((v.map Version.number).getD 0) = .ok v := by
  cases v with
  | none => rfl
  | some v => cases v <;> rfl

theorem State.ofNumber?_eq_some {n : UInt8} {s : State} :
    State.ofNumber? n = some s ↔ n = s.number := by
  constructor
  · intro h
    have hnumber := List.find?_some h
    exact (beq_iff_eq.mp hnumber).symm
  · rintro rfl
    exact State.ofNumber?_number s

theorem version_eq_ok {n : UInt8} {v : Version} : version n = .ok v ↔ n = v.number := by
  rw [← Version.ofNumber?_eq_some, version]
  cases Version.ofNumber? n <;> simp

theorem upgrade_eq_ok {n : UInt8} {v : Option Version} :
    upgrade n = .ok v ↔ n = (v.map Version.number).getD 0 := by
  constructor
  · intro h
    unfold upgrade at h
    split at h
    next hzero =>
      cases h
      exact hzero
    next =>
      obtain ⟨v, hv, rfl⟩ := map_eq_ok.mp h
      exact version_eq_ok.mp hv
  · rintro rfl
    exact upgrade_number v

theorem length_encode (s : ServerStatus) : s.encode.length = 32 := by
  simp [encode, magic, reserved, s.chainDigest.length_eq]

def block (format : UInt8) (gap : Fixed 5) (s : ServerStatus) : Bytes :=
  magic ++ [format, s.state.number, s.currentVersion.number,
    (s.upgradeVersion.map Version.number).getD 0] ++ gap.bytes ++
    [s.counterByte, s.failCount, s.maxFailCount, s.lookahead] ++ s.chainDigest.bytes

theorem encode_eq_block (s : ServerStatus) : s.encode = s.block formatByte (.zero 5) := rfl

theorem decode_block {format : UInt8} (h : isFormatByte format = true) (gap : Fixed 5)
    (s : ServerStatus) : decode (s.block format gap) = .ok s := by
  obtain ⟨gap, hgap⟩ := gap
  match gap, hgap with
  | [_, _, _, _, _], _ =>
    simp only [block, magic, List.cons_append, List.nil_append, decode,
      Fixed.ofBytes?_bytes, h, and_self, if_true, State.ofNumber?_number, version_number,
      upgrade_number]
    rfl

theorem decode_encode (s : ServerStatus) : decode s.encode = .ok s :=
  decode_block rfl (.zero 5) s

theorem getElem?_spliced {a x y c : Bytes} (h : x.length = y.length) {i : Nat}
    (hi : i < a.length ∨ a.length + x.length ≤ i) : (a ++ x ++ c)[i]? = (a ++ y ++ c)[i]? := by
  simp only [List.append_assoc]
  rcases hi with hi | hi
  · rw [List.getElem?_append_left hi, List.getElem?_append_left hi]
  · have ha : a.length ≤ i := by omega
    rw [List.getElem?_append_right ha, List.getElem?_append_right ha,
      List.getElem?_append_right (by omega), List.getElem?_append_right (by omega), h]

theorem getElem?_encode (format : UInt8) (gap : Fixed 5) (s : ServerStatus) (i : Nat) :
    s.encode[i]? =
      if i = 3 then some 0xd1 else if 7 ≤ i ∧ i ≤ 11 then some 0 else (s.block format gap)[i]? := by
  rw [encode_eq_block]
  split
  next h =>
    rw [h]
    rfl
  next hformat =>
    split
    next h =>
      obtain ⟨hlow, hhigh⟩ := h
      interval_cases i <;> rfl
    next hgap =>
      have hrest : (s.block formatByte (.zero 5))[i]? = (s.block formatByte gap)[i]? := by
        unfold block
        rw [List.append_assoc _ _ s.chainDigest.bytes, List.append_assoc _ _ s.chainDigest.bytes]
        refine getElem?_spliced ?_ ?_
        · rw [gap.length_eq, Fixed.length_eq]
        · simp only [magic, List.length_append, List.length_cons, List.length_nil, Fixed.length_eq]
          omega
      rw [hrest]
      refine getElem?_spliced (a := magic) (x := [formatByte]) (y := [format]) rfl ?_
      simp only [magic, List.length_cons, List.length_nil]
      omega

theorem decode_eq_ok {b : Bytes} {s : ServerStatus} :
    decode b = .ok s ↔ ∃ format gap, isFormatByte format = true ∧ b = s.block format gap := by
  constructor
  · intro h
    unfold decode at h
    split at h
    next m0 m1 m2 format state current next r0 r1 r2 r3 r4 counterByte failCount maxFailCount
        lookahead digest =>
      split at h
      next => cases h
      next chainDigest hdigest =>
        split at h
        next hheader =>
          obtain ⟨hmagic, hformat⟩ := hheader
          split at h
          next => cases h
          next state hstate =>
            obtain ⟨currentVersion, hcurrent, h⟩ := bind_eq_ok.mp h
            obtain ⟨upgradeVersion, hupgrade, h⟩ := bind_eq_ok.mp h
            cases h
            cases hmagic
            obtain rfl := Fixed.ofBytes?_eq_some.mp hdigest
            obtain rfl := State.ofNumber?_eq_some.mp hstate
            obtain rfl := version_eq_ok.mp hcurrent
            obtain rfl := upgrade_eq_ok.mp hupgrade
            exact ⟨format, ⟨[r0, r1, r2, r3, r4], rfl⟩, hformat, rfl⟩
        next => cases h
    next => cases h
  · rintro ⟨format, gap, hformat, rfl⟩
    exact decode_block hformat gap s

structure Readable (b : Bytes) : Prop where
  length : b.length = 32
  magic : b.take 3 = [0xde, 0xc0, 0xde]
  format : ∃ f, b[3]? = some f ∧ 0xd1 ≤ f ∧ f ≤ 0xdf
  state : ∃ s : State, b[4]? = some s.number
  current : ∃ v : Version, b[5]? = some v.number
  upgrade : b[6]? = some 0 ∨ ∃ v : Version, b[6]? = some v.number

theorem readable_block {format : UInt8} (h : isFormatByte format = true) (gap : Fixed 5)
    (s : ServerStatus) : Readable (s.block format gap) where
  length := by
    simp [block, ServerStatus.magic, gap.length_eq, s.chainDigest.length_eq]
  magic := rfl
  format := by
    simp only [isFormatByte, Bool.and_eq_true, decide_eq_true_eq] at h
    exact ⟨format, rfl, h⟩
  state := ⟨s.state, rfl⟩
  current := ⟨s.currentVersion, rfl⟩
  upgrade := by
    cases hu : s.upgradeVersion with
    | none =>
        have hzero : (s.upgradeVersion.map Version.number).getD 0 = 0 := by rw [hu]; rfl
        exact .inl (congrArg some hzero)
    | some v =>
        have hv : (s.upgradeVersion.map Version.number).getD 0 = v.number := by rw [hu]; rfl
        exact .inr ⟨v, congrArg some hv⟩

theorem drop_of_getElem? {b : Bytes} {n : Nat} {x : UInt8} (h : b[n]? = some x) :
    b.drop n = x :: b.drop (n + 1) := by
  obtain ⟨hn, rfl⟩ := List.getElem?_eq_some_iff.mp h
  exact List.drop_eq_getElem_cons hn

theorem block_of_readable {b : Bytes} (h : Readable b) :
    ∃ format gap, ∃ s : ServerStatus, isFormatByte format = true ∧ b = s.block format gap := by
  obtain ⟨hlength, hmagic, ⟨format, hformat, hrange⟩, ⟨state, hstate⟩, ⟨current, hcurrent⟩,
    hnext⟩ := h
  obtain ⟨next, hnext⟩ : ∃ v : Option Version, b[6]? = some ((v.map Version.number).getD 0) := by
    rcases hnext with hzero | ⟨v, hv⟩
    · exact ⟨none, hzero⟩
    · exact ⟨some v, hv⟩
  have hbyte {n : Nat} (hn : n < 32) : b.drop n = b[n] :: b.drop (n + 1) :=
    List.drop_eq_getElem_cons _
  have hgap : b.drop 7 = (b.drop 7).take 5 ++ b.drop 12 := by
    rw [← List.drop_drop (i := 5) (j := 7), List.take_append_drop]
  have hfields : b.drop 12 = b[12] :: b[13] :: b[14] :: b[15] :: b.drop 16 := by
    rw [hbyte (n := 12) (by decide), hbyte (n := 13) (by decide), hbyte (n := 14) (by decide),
      hbyte (n := 15) (by decide)]
  refine ⟨format, ⟨(b.drop 7).take 5, ?_⟩, ⟨state, current, next, b[12], b[13], b[14], b[15],
    ⟨b.drop 16, ?_⟩⟩, ?_, ?_⟩
  · rw [List.length_take, List.length_drop, hlength]
    rfl
  · rw [List.length_drop, hlength]
  · simpa [isFormatByte] using hrange
  · calc b = b.take 3 ++ b.drop 3 := (List.take_append_drop 3 b).symm
      _ = magic ++ format :: state.number :: current.number ::
            (next.map Version.number).getD 0 :: b.drop 7 := by
        rw [hmagic, magic, drop_of_getElem? hformat, drop_of_getElem? hstate,
          drop_of_getElem? hcurrent, drop_of_getElem? hnext]
      _ = magic ++ format :: state.number :: current.number ::
            (next.map Version.number).getD 0 ::
              ((b.drop 7).take 5 ++ b[12] :: b[13] :: b[14] :: b[15] :: b.drop 16) := by
        rw [← hfields, ← hgap]
      _ = _ := by simp [block, ServerStatus.magic]

theorem exists_decode_iff {b : Bytes} : (∃ s, decode b = .ok s) ↔ Readable b := by
  constructor
  · rintro ⟨s, hs⟩
    obtain ⟨format, gap, hformat, rfl⟩ := decode_eq_ok.mp hs
    exact readable_block hformat gap s
  · intro h
    obtain ⟨format, gap, s, hformat, rfl⟩ := block_of_readable h
    exact ⟨s, decode_block hformat gap s⟩

end DeviceAuth.ServerStatus
