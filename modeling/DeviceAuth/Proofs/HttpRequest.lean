import DeviceAuth.FactorSignature
import DeviceAuth.HttpRequest
import DeviceAuth.Proofs.Base64
import DeviceAuth.Proofs.Framing

namespace DeviceAuth

theorem eq_and_eq_of_append_cons {α : Type} {a : α} {xs ys bs cs : List α} (hb : a ∉ bs)
    (hc : a ∉ cs) (h : xs ++ a :: bs = ys ++ a :: cs) : xs = ys ∧ bs = cs := by
  rcases List.append_eq_append_iff.mp h with ⟨more, rfl, hmore⟩ | ⟨more, rfl, hmore⟩
  · cases more with
    | nil => exact ⟨(List.append_nil xs).symm, (List.cons.inj hmore).2⟩
    | cons d more =>
        obtain ⟨rfl, rfl⟩ := List.cons.inj hmore
        exact absurd (List.mem_append_right more List.mem_cons_self) hb
  · cases more with
    | nil => exact ⟨List.append_nil ys, (List.cons.inj hmore).2.symm⟩
    | cons d more =>
        obtain ⟨rfl, rfl⟩ := List.cons.inj hmore
        exact absurd (List.mem_append_right more List.mem_cons_self) hc

namespace HttpRequest

variable {r r' : HttpRequest} {nonce nonce' secret : String}

theorem toList_normalized (r : HttpRequest) (nonce secret : String) :
    (r.normalized nonce secret).toList =
      r.method.toList ++ '&' :: Base64.chars (Text.utf8 r.uri) ++ '&' :: nonce.toList ++
        '&' :: Base64.chars r.body ++ '&' :: secret.toList := by
  simp [normalized, Base64.encode]

theorem normalized_inj (hnonce : '&' ∉ nonce.toList) (hnonce' : '&' ∉ nonce'.toList)
    (h : r.normalized nonce secret = r'.normalized nonce' secret) :
    r.method = r'.method ∧ r.uri = r'.uri ∧ nonce = nonce' ∧ r.body = r'.body := by
  have hchars := congrArg String.toList h
  rw [toList_normalized, toList_normalized] at hchars
  have hsigned := List.append_cancel_right hchars
  obtain ⟨hfront, hbody⟩ := eq_and_eq_of_append_cons (Base64.ampersand_not_mem_chars _)
    (Base64.ampersand_not_mem_chars _) hsigned
  obtain ⟨htarget, hnonces⟩ := eq_and_eq_of_append_cons hnonce hnonce' hfront
  obtain ⟨hmethod, huri⟩ := eq_and_eq_of_append_cons (Base64.ampersand_not_mem_chars _)
    (Base64.ampersand_not_mem_chars _) htarget
  exact ⟨String.toList_inj.mp hmethod,
    Text.utf8_injective (Base64.encode_injective (congrArg String.ofList huri)),
    String.toList_inj.mp hnonces, Base64.encode_injective (congrArg String.ofList hbody)⟩

end HttpRequest

namespace FactorSignature

variable {r r' : HttpRequest} {nonce nonce' secret : String} {c c' : Counter}
  {data data' b b' : Bytes}

theorem fits_data (c : Counter) : Framing.Fits c.data := by
  cases c with
  | numeric n => simp [Framing.Fits, Counter.data]
  | chain state steps => simp [Framing.Fits, Counter.data, state.length_eq]

theorem input_inj (hfits : Framing.Fits data) (hfits' : Framing.Fits data')
    (h : input c data = input c' data') : c.data = c'.data ∧ data = data' := by
  have hall : ∀ part ∈ [c.data, data], Framing.Fits part := by simp [fits_data, hfits]
  have hall' : ∀ part ∈ [c'.data, data'], Framing.Fits part := by simp [fits_data, hfits']
  simpa using Framing.join_injective hall hall' h

theorem input_determines_request (hnonce : Base64.decode nonce = .ok b)
    (hnonce' : Base64.decode nonce' = .ok b')
    (hfits : Framing.Fits (r.normalizedData nonce secret))
    (hfits' : Framing.Fits (r'.normalizedData nonce' secret)) :
    input c (r.normalizedData nonce secret) = input c' (r'.normalizedData nonce' secret) ↔
      c.data = c'.data ∧ r.method = r'.method ∧ r.uri = r'.uri ∧ nonce = nonce' ∧
        r.body = r'.body := by
  rw [Base64.decode_eq_ok] at hnonce hnonce'
  constructor
  · intro h
    obtain ⟨hcounter, hdata⟩ := input_inj hfits hfits' h
    refine ⟨hcounter, HttpRequest.normalized_inj ?_ ?_ (Text.utf8_injective hdata)⟩
    · simpa [hnonce, Base64.encode] using Base64.ampersand_not_mem_chars b
    · simpa [hnonce', Base64.encode] using Base64.ampersand_not_mem_chars b'
  · rintro ⟨hcounter, hmethod, huri, hnonces, hbody⟩
    simp only [input, HttpRequest.normalizedData, HttpRequest.normalized, hcounter, hmethod, huri,
      hnonces, hbody]

section Example

def longMethod : HttpRequest :=
  { method := "GET&AA==", uri := "/a" }

def longTarget : HttpRequest :=
  { method := "GET", uri := "\x00", body := [7] }

theorem separator_in_method_harmless :
    Base64.decode "AA==" = .ok [0] ∧ Base64.decode "L2E=" = .ok (Text.utf8 "/a") ∧
    Framing.Fits (longMethod.normalizedData "AA==" "a&b") ∧
    Framing.Fits (longTarget.normalizedData "L2E=" "a&b") ∧
    input (.numeric 7) (longMethod.normalizedData "AA==" "a&b") ≠
      input (.numeric 7) (longTarget.normalizedData "L2E=" "a&b") := by
  have hfirst : Base64.decode "AA==" = .ok [0] := Base64.decode_eq_ok.mpr (by decide +kernel)
  have hsecond : Base64.decode "L2E=" = .ok (Text.utf8 "/a") :=
    Base64.decode_eq_ok.mpr (by decide +kernel)
  have hfits : (longMethod.normalizedData "AA==" "a&b").length < 2 ^ 32 := by decide +kernel
  have hfits' : (longTarget.normalizedData "L2E=" "a&b").length < 2 ^ 32 := by decide +kernel
  refine ⟨hfirst, hsecond, hfits, hfits', fun h => ?_⟩
  obtain ⟨-, hmethod, -⟩ := (input_determines_request hfirst hsecond hfits hfits').mp h
  exact absurd hmethod (by decide)

end Example

end FactorSignature

end DeviceAuth
