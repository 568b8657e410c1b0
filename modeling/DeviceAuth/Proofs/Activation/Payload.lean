import DeviceAuth.Activation.Payload
import DeviceAuth.Proofs.Except
import DeviceAuth.Proofs.Framing

namespace DeviceAuth.Activation

theorem textOf_eq_ok {what : String} {b : Bytes} {s : String} :
    textOf what b = .ok s ↔ b = Text.utf8 s := by
  unfold textOf
  cases h : Text.ofUtf8? b with
  | none =>
      constructor
      · intro he
        cases he
      · intro hb
        rw [Text.ofUtf8?_eq_some.mpr hb] at h
        cases h
  | some t =>
      have hb := Text.ofUtf8?_eq_some.mp h
      constructor
      · intro he
        cases he
        exact hb
      · intro hs
        rw [Text.utf8_injective (hb.symm.trans hs)]

namespace Request

def parts (r : Request) : List Bytes :=
  [Text.utf8 (r.code.getD ""), r.deviceKey]

theorem decode_eq_ok {b : Bytes} {r : Request} :
    decode b = .ok r ↔ Framing.split b = .ok r.parts ∧ r.code ≠ some "" := by
  constructor
  · intro h
    obtain ⟨components, hsplit, h⟩ := bind_eq_ok.mp h
    rw [hsplit]
    split at h
    next code key =>
      split at h
      next hempty =>
        cases h
        rw [List.isEmpty_iff.mp hempty]
        exact ⟨rfl, by simp⟩
      next hcode =>
        obtain ⟨text, htext, h⟩ := bind_eq_ok.mp h
        cases h
        obtain rfl := textOf_eq_ok.mp htext
        refine ⟨rfl, ?_⟩
        rintro heq
        cases heq
        exact hcode rfl
    next => cases h
  · rintro ⟨hsplit, hcode⟩
    refine bind_eq_ok.mpr ⟨r.parts, hsplit, ?_⟩
    obtain ⟨code, deviceKey⟩ := r
    cases code with
    | none => rfl
    | some code =>
        have hne : (Text.utf8 code).isEmpty = false := by
          rw [List.isEmpty_eq_false_iff]
          intro hnil
          exact hcode (congrArg some (Text.utf8_injective hnil))
        simp only [parts, Option.getD_some, hne]
        exact bind_eq_ok.mpr ⟨code, textOf_eq_ok.mpr rfl, rfl⟩

theorem decode_encode {r : Request} (hcode : r.code ≠ some "")
    (hfits : Framing.Fits (Text.utf8 (r.code.getD ""))) (hkey : Framing.Fits r.deviceKey) :
    decode r.encode = .ok r :=
  decode_eq_ok.mpr ⟨Framing.split_join (by simp [hfits, hkey]), hcode⟩

end Request

namespace Response

theorem seed_eq_ok {b : Bytes} {k : Option Key} :
    seed b = .ok k ↔ b = (k.map Fixed.bytes).getD [] := by
  unfold seed
  cases b with
  | nil =>
      cases k with
      | none => simp
      | some k =>
          have hk : k.bytes ≠ [] := List.ne_nil_of_length_eq_add_one k.length_eq
          simpa using hk.symm
  | cons x b =>
      rw [if_neg (by simp)]
      cases h : Fixed.ofBytes? 32 (x :: b) with
      | none =>
          constructor
          · intro he
            cases he
          · intro hb
            cases k with
            | none => cases hb
            | some k =>
                rw [hb] at h
                simp at h
      | some k' =>
          have hk := Fixed.ofBytes?_eq_some.mp h
          constructor
          · intro he
            cases he
            exact hk
          · intro hb
            cases k with
            | none => cases hb
            | some k =>
                have he : k'.bytes = k.bytes := hk.symm.trans hb
                rw [Fixed.ext_bytes he]

theorem seedBytes_eq (r : Response) : r.seedBytes = (r.counterSeed.map Fixed.bytes).getD [] := by
  unfold seedBytes
  cases r.counterSeed <;> rfl

theorem ofParts_eq_ok {id key seedPart signature : Bytes} {recovery : Option Recovery}
    {r : Response} :
    ofParts id key seedPart signature recovery = .ok r ↔
      r.activationId.isEmpty = false ∧ r.signedParts = [id, key, seedPart] ∧
        r.signature = signature ∧ r.recovery = recovery := by
  constructor
  · intro h
    obtain ⟨activationId, hid, h⟩ := bind_eq_ok.mp h
    obtain ⟨hempty, h⟩ := guard_eq_ok.mp h
    obtain ⟨counterSeed, hseed, h⟩ := bind_eq_ok.mp h
    cases h
    refine ⟨by simpa using hempty, ?_, rfl, rfl⟩
    rw [signedParts, seedBytes_eq, ← textOf_eq_ok.mp hid, ← seed_eq_ok.mp hseed]
  · rintro ⟨hempty, hparts, rfl, rfl⟩
    simp only [signedParts, List.cons.injEq, and_true] at hparts
    obtain ⟨hid, hkey, hseed⟩ := hparts
    refine bind_eq_ok.mpr ⟨r.activationId, textOf_eq_ok.mpr hid.symm, ?_⟩
    refine guard_eq_ok.mpr ⟨by simpa using hempty, ?_⟩
    refine bind_eq_ok.mpr ⟨r.counterSeed, ?_, by rw [← hkey]; rfl⟩
    rw [seed_eq_ok, ← hseed, seedBytes_eq]

def parts (r : Response) : List Bytes :=
  r.signedParts ++ [r.signature] ++ r.recoveryParts

theorem decode_eq_ok {b : Bytes} {r : Response} :
    decode b = .ok r ↔ Framing.split b = .ok r.parts ∧ r.activationId.isEmpty = false := by
  constructor
  · intro h
    obtain ⟨components, hsplit, h⟩ := bind_eq_ok.mp h
    rw [hsplit]
    split at h
    next id key seedPart signature =>
      obtain ⟨hempty, hparts, hsignature, hrecovery⟩ := ofParts_eq_ok.mp h
      exact ⟨by simp [parts, hparts, hsignature, recoveryParts, hrecovery], hempty⟩
    next id key seedPart signature code puk =>
      obtain ⟨pukText, hpuk, h⟩ := bind_eq_ok.mp h
      obtain ⟨codeText, hcode, h⟩ := bind_eq_ok.mp h
      obtain ⟨hempty, hparts, hsignature, hrecovery⟩ := ofParts_eq_ok.mp h
      refine ⟨?_, hempty⟩
      simp [parts, hparts, hsignature, recoveryParts, hrecovery, textOf_eq_ok.mp hpuk,
        textOf_eq_ok.mp hcode]
    next => cases h
  · rintro ⟨hsplit, hempty⟩
    refine bind_eq_ok.mpr ⟨r.parts, hsplit, ?_⟩
    cases hrecovery : r.recovery with
    | none =>
        simp only [parts, signedParts, recoveryParts, hrecovery, List.append_nil,
          List.cons_append, List.nil_append]
        exact ofParts_eq_ok.mpr ⟨hempty, rfl, rfl, hrecovery⟩
    | some recovery =>
        simp only [parts, signedParts, recoveryParts, hrecovery, List.cons_append,
          List.nil_append]
        refine bind_eq_ok.mpr ⟨recovery.puk, textOf_eq_ok.mpr rfl, ?_⟩
        refine bind_eq_ok.mpr ⟨recovery.code, textOf_eq_ok.mpr rfl, ?_⟩
        exact ofParts_eq_ok.mpr ⟨hempty, rfl, rfl, hrecovery⟩

theorem decode_encode {r : Response} (hfits : ∀ c ∈ r.parts, Framing.Fits c)
    (hid : r.activationId ≠ "") : decode r.encode = .ok r :=
  decode_eq_ok.mpr ⟨Framing.split_join hfits, by simpa using hid⟩

theorem fits_of_decode {b : Bytes} {r : Response} (h : decode b = .ok r) :
    ∀ c ∈ r.parts, Framing.Fits c :=
  Framing.fits_of_mem_split (decode_eq_ok.mp h).1

end Response

theorem payloads_read_exactly :
    (∀ (b : Bytes) (r : Request), Request.decode b = .ok r ↔
      r.code ≠ some "" ∧ (∀ c ∈ r.parts, Framing.Fits c) ∧ r.encode = b) ∧
    ∀ (b : Bytes) (r : Response), Response.decode b = .ok r ↔
      r.activationId ≠ "" ∧ (∀ c ∈ r.parts, Framing.Fits c) ∧ r.encode = b := by
  constructor
  · intro b r
    rw [Request.decode_eq_ok, Framing.split_eq_ok, and_comm]
    rfl
  · intro b r
    rw [Response.decode_eq_ok, Framing.split_eq_ok, and_comm, Bool.eq_false_iff, ne_eq,
      String.isEmpty_iff]
    rfl

end DeviceAuth.Activation
