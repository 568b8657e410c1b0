import DeviceAuth.Activation.StoredStatus
import DeviceAuth.Proofs.Codec.Exact
import DeviceAuth.Proofs.Except

namespace DeviceAuth.Activation.StoredStatus

variable {s : StoredStatus} {flags : UInt8} {body blob extra : Bytes}

def Storable (s : StoredStatus) : Prop :=
  ∀ r, s = .activated r → r.Storable

theorem storable_empty : Storable .empty := by
  intro r h
  cases h

theorem storable_removed : Storable .removed := by
  intro r h
  cases h

theorem storable_activated {r : Record} : Storable (.activated r) ↔ r.Storable := by
  constructor
  · intro h
    exact h r rfl
  · intro h r' hr
    cases hr
    exact h

def encodeWith (s : StoredStatus) (extra : Bytes) : Bytes :=
  s.content ++ extra ++ (sha256 (s.content ++ extra)).bytes

theorem encodeWith_nil (s : StoredStatus) : s.encodeWith [] = s.encode := by
  simp [encodeWith, encode]

theorem length_encodeWith (s : StoredStatus) (extra : Bytes) :
    (s.encodeWith extra).length = s.encode.length + extra.length := by
  simp only [encodeWith, encode, List.length_append, Fixed.length_eq]
  omega

theorem encode_eq_encodeWith : s.encode = s.encodeWith extra ↔ extra = [] := by
  constructor
  · intro h
    have hlength := congrArg List.length h
    rw [length_encodeWith] at hlength
    exact List.length_eq_zero_iff.mp (by omega)
  · rintro rfl
    exact s.encodeWith_nil.symm

-- The end of a record is where the reader stops; a status without a record must end the body.
def Admits (s : StoredStatus) (extra : Bytes) : Prop :=
  extra = [] ∨ ∃ r, s = .activated r

theorem ofBody_eq_ok :
    ofBody flags body = .ok s ↔
      s.Storable ∧ ∃ extra, s.Admits extra ∧ flags = s.flags ∧ body = s.body ++ extra := by
  constructor
  · intro h
    unfold ofBody at h
    split at h
    next hempty =>
      cases h
      exact ⟨storable_empty, [], .inl rfl, hempty⟩
    split at h
    next hremoved =>
      cases h
      exact ⟨storable_removed, [], .inl rfl, hremoved⟩
    split at h
    next hflags =>
      obtain ⟨r, hd, h⟩ := bind_eq_ok.mp h
      split at h
      next hcomplete =>
        cases h
        obtain ⟨extra, hbody⟩ := Record.exact_codec.decode hd
        exact ⟨storable_activated.mpr (Record.storable_of_decode hd hcomplete), extra,
          .inr ⟨r, rfl⟩, hflags, hbody⟩
      next => cases h
    next => cases h
  · rintro ⟨hs, extra, hadmits, rfl, rfl⟩
    cases s with
    | empty => simp_all [Admits, ofBody, StoredStatus.flags, StoredStatus.body]
    | removed =>
        simp_all [Admits, ofBody, StoredStatus.flags, StoredStatus.body, removedFlags, emptyFlags]
    | activated r =>
        have hr := storable_activated.mp hs
        have hd := Record.faithful_codec.decode hr extra
        have he : activatedFlags ≠ emptyFlags := by decide
        have hm : activatedFlags ≠ removedFlags := by decide
        simp only [ofBody, StoredStatus.flags, StoredStatus.body, he, hm, false_and, if_false,
          if_true, hd]
        exact bind_eq_ok.mpr ⟨r, rfl, if_pos hr.complete⟩

theorem decode_eq_ok_iff :
    decode blob = .ok s ↔ ∃ flags body, ofBody flags body = .ok s ∧
      blob = magic ++ [formatVersion, flags] ++ body ++
        (sha256 (magic ++ [formatVersion, flags] ++ body)).bytes := by
  constructor
  · intro h
    have hparts := List.take_append_drop (blob.length - 32) blob
    unfold decode at h
    dsimp only at h
    split at h
    next => cases h
    split at h
    next => cases h
    next hdigest =>
      have hdrop := Classical.not_not.mp hdigest
      generalize blob.take (blob.length - 32) = content at h hparts hdrop
      split at h
      next m0 m1 format flags body =>
        split at h
        next => cases h
        next hmagic =>
          split at h
          next => cases h
          next hformat =>
            obtain rfl := Classical.not_not.mp hformat
            cases Classical.not_not.mp hmagic
            refine ⟨flags, body, h, ?_⟩
            rw [← hparts, ← hdrop]
            rfl
      next => cases h
  · rintro ⟨flags, body, h, rfl⟩
    generalize hcontent : magic ++ [formatVersion, flags] ++ body = content
    have hlength : (content ++ (sha256 content).bytes).length - 32 = content.length := by
      rw [List.length_append, Fixed.length_eq, Nat.add_sub_cancel]
    have hmin : ¬(content ++ (sha256 content).bytes).length < 36 := by
      simp only [← hcontent, magic, List.length_append, Fixed.length_eq, List.length_cons]
      omega
    simp only [decode, hlength, List.take_left, List.drop_left, if_neg hmin, ne_eq,
      not_true_eq_false, if_false]
    rw [← hcontent]
    simp only [magic, List.cons_append, List.nil_append, not_true_eq_false, if_false, h]

theorem decode_eq_ok :
    decode blob = .ok s ↔ s.Storable ∧ ∃ extra, s.Admits extra ∧ blob = s.encodeWith extra := by
  rw [decode_eq_ok_iff]
  constructor
  · rintro ⟨flags, body, hbody, rfl⟩
    obtain ⟨hs, extra, hadmits, rfl, rfl⟩ := ofBody_eq_ok.mp hbody
    exact ⟨hs, extra, hadmits, by simp [encodeWith, content]⟩
  · rintro ⟨hs, extra, hadmits, rfl⟩
    exact ⟨s.flags, s.body ++ extra, ofBody_eq_ok.mpr ⟨hs, extra, hadmits, rfl, rfl⟩,
      by simp [encodeWith, content]⟩

theorem decode_encode (h : s.Storable) : decode s.encode = .ok s :=
  decode_eq_ok.mpr ⟨h, [], .inl rfl, s.encodeWith_nil.symm⟩

theorem storable_of_decode (h : decode blob = .ok s) : s.Storable :=
  (decode_eq_ok.mp h).1

theorem eq_encode_of_decode_removed (h : decode blob = .ok .removed) : blob = encode .removed := by
  obtain ⟨-, extra, rfl | ⟨r, hr⟩, rfl⟩ := decode_eq_ok.mp h
  · exact encodeWith_nil .removed
  · cases hr

theorem corrupted_of_ofBody {why : Failure} (h : ofBody flags body = .error why) :
    ∃ cause, why = .corrupted cause := by
  unfold ofBody at h
  split at h
  next => cases h
  split at h
  next => cases h
  split at h
  next =>
    rcases bind_eq_error.mp h with hd | ⟨r, -, h⟩
    · exact Codec.corrupted_of_decode hd
    · split at h
      next => cases h
      next => exact ⟨_, (Except.error.inj h).symm⟩
  next => exact ⟨_, (Except.error.inj h).symm⟩

theorem corrupted_of_decode {why : Failure} (h : decode blob = .error why) :
    ∃ cause, why = .corrupted cause := by
  unfold decode at h
  dsimp only at h
  -- All checks but the last, which is that of flags and body, name their cause.
  repeat' split at h
  all_goals first
    | exact corrupted_of_ofBody h
    | exact ⟨_, (Except.error.inj h).symm⟩

theorem accepted_forms (blob : Bytes) :
    (∀ s : StoredStatus, decode blob = .ok s ↔
      s.Storable ∧ ∃ extra, s.Admits extra ∧ blob = s.encodeWith extra) ∧
    (∀ (s : StoredStatus) extra, blob = s.encodeWith extra → (s.encode = blob ↔ extra = [])) ∧
    ∀ why, decode blob = .error why → ∃ cause, why = .corrupted cause := by
  refine ⟨fun s => decode_eq_ok, ?_, fun why => corrupted_of_decode⟩
  rintro s extra rfl
  exact encode_eq_encodeWith

section Example

def leastRecord : Record where
  id := "a"
  serverKey := [2]
  deviceKey := [3]
  sealedPrivateKey := [4]
  sealedRecovery := none
  keys := {
    possession := []
    knowledge := []
    biometry := none
    transport := []
    salt := Fixed.zero 16
    iterations := 0 }
  counter := .numeric 0
  external := false
  health := .valid
  pendingUpgrade := none

theorem storable_leastRecord : leastRecord.Storable where
  complete := by decide
  id := by
    rw [Codec.Short]
    decide +kernel
  serverKey := by simp [Codec.Short, leastRecord]
  deviceKey := by simp [Codec.Short, leastRecord]
  sealedPrivateKey := by simp [Codec.Short, leastRecord]
  sealedRecovery := by simp [leastRecord]
  keys := {
    possession := by simp [Codec.Short, leastRecord]
    knowledge := by simp [Codec.Short, leastRecord]
    biometry := by simp [leastRecord]
    transport := by simp [Codec.Short, leastRecord] }

theorem trailing_byte_accepted :
    let blob := (StoredStatus.activated leastRecord).encodeWith [0]
    decode blob = .ok (.activated leastRecord) ∧
      (StoredStatus.activated leastRecord).encode ≠ blob := by
  intro blob
  constructor
  · exact decode_eq_ok.mpr
      ⟨storable_activated.mpr storable_leastRecord, [0], .inr ⟨leastRecord, rfl⟩, rfl⟩
  · intro h
    exact absurd (encode_eq_encodeWith.mp h) (by simp)

end Example

end DeviceAuth.Activation.StoredStatus
