import DeviceAuth.FactorSignature
import DeviceAuth.Proofs.Counter
import DeviceAuth.Proofs.Except

namespace DeviceAuth

namespace FactorKeys

variable {keys : FactorKeys} {f : Factor} {key : Key}

def Hold (keys : FactorKeys) (factors : FactorSet) : Prop :=
  ∀ f, factors.contains f = true → ∃ key, keys.get f = some key

theorem find_eq_ok : keys.find f = .ok key ↔ keys.get f = some key := by
  unfold find
  cases keys.get f <;> simp

end FactorKeys

namespace FactorSignature

open Counter

variable {factors : FactorSet} {keys ks : FactorKeys} {c c' : Counter} {data : Bytes}
  {text : String} {lookahead n : Nat}

theorem compute_congr (h : ∀ f ∈ factors.toList, keys.get f = ks.get f) (c : Counter)
    (data : Bytes) : compute factors keys c data = compute factors ks c data := by
  have hcodes : factors.toList.mapM (factorCode keys c data) =
      factors.toList.mapM (factorCode ks c data) := by
    refine mapM_congr fun f hf => ?_
    rw [factorCode, factorCode, FactorKeys.find, FactorKeys.find, h f hf]
  rw [compute, compute, hcodes]

theorem factorCode_eq_ok {f : Factor} :
    factorCode keys c data f = .ok text ↔
      ∃ key, keys.get f = some key ∧ code c.version (hmac key.bytes (input c data)) = text := by
  constructor
  · intro h
    obtain ⟨key, hkey, hcode⟩ := bind_eq_ok.mp h
    cases hcode
    exact ⟨key, FactorKeys.find_eq_ok.mp hkey, rfl⟩
  · rintro ⟨key, hkey, rfl⟩
    exact bind_eq_ok.mpr ⟨key, FactorKeys.find_eq_ok.mpr hkey, rfl⟩

theorem compute_eq_ok :
    compute factors keys c data = .ok text ↔
      factors.allowed = true ∧ ∃ codes, factors.toList.mapM (factorCode keys c data) = .ok codes ∧
        "-".intercalate codes = text := by
  constructor
  · intro h
    obtain ⟨_, hallowed, h⟩ := bind_eq_ok.mp h
    obtain ⟨codes, hcodes, h⟩ := bind_eq_ok.mp h
    cases h
    refine ⟨?_, codes, hcodes, rfl⟩
    unfold FactorSet.check at hallowed
    split at hallowed
    next hyes => exact hyes
    next => cases hallowed
  · rintro ⟨hallowed, codes, hcodes, rfl⟩
    exact bind_eq_ok.mpr ⟨(), if_pos hallowed, bind_eq_ok.mpr ⟨codes, hcodes, rfl⟩⟩

theorem exists_compute_iff :
    (∃ text, compute factors keys c data = .ok text) ↔
      factors.allowed = true ∧ keys.Hold factors := by
  constructor
  · rintro ⟨text, h⟩
    obtain ⟨hallowed, codes, hcodes, -⟩ := compute_eq_ok.mp h
    refine ⟨hallowed, fun f hf => ?_⟩
    obtain ⟨_, hcode⟩ := exists_of_mapM hcodes f (FactorSet.mem_toList.mpr hf)
    obtain ⟨key, hkey, -⟩ := factorCode_eq_ok.mp hcode
    exact ⟨key, hkey⟩
  · rintro ⟨hallowed, hhold⟩
    have hcode : ∀ f ∈ factors.toList, ∃ text, factorCode keys c data f = .ok text := by
      intro f hf
      obtain ⟨key, hkey⟩ := hhold f (FactorSet.mem_toList.mp hf)
      exact ⟨_, factorCode_eq_ok.mpr ⟨key, hkey, rfl⟩⟩
    obtain ⟨codes, hcodes⟩ := exists_mapM hcode
    exact ⟨_, compute_eq_ok.mpr ⟨hallowed, codes, hcodes, rfl⟩⟩

theorem exists_compute_of_compute (h : compute factors keys c data = .ok text) (d : Counter)
    (b : Bytes) : ∃ t, compute factors keys d b = .ok t :=
  exists_compute_iff.mpr (exists_compute_iff.mp ⟨text, h⟩)

theorem verify_of_hit (h : compute factors keys c data = .ok text) :
    verify factors keys data text lookahead c = .ok c.next := by
  unfold verify
  rw [h]
  exact if_pos rfl

theorem verify_of_miss {t : String} (h : compute factors keys c data = .ok t) (hne : t ≠ text) :
    verify factors keys data text (lookahead + 1) c =
      verify factors keys data text lookahead c.next := by
  conv => lhs; unfold verify
  rw [h]
  exact if_neg hne

theorem verify_of_last {t : String} (h : compute factors keys c data = .ok t) (hne : t ≠ text) :
    verify factors keys data text 0 c = .error .counterOutOfSync := by
  unfold verify
  rw [h]
  exact if_neg hne

theorem exists_compute_of_verify (h : verify factors keys data text lookahead c = .ok c') :
    ∃ t, compute factors keys c data = .ok t := by
  unfold verify at h
  obtain ⟨t, ht, -⟩ := bind_eq_ok.mp h
  exact ⟨t, ht⟩

theorem verify_of_first (hn : n ≤ lookahead)
    (hhit : compute factors keys (advance n c) data = .ok text)
    (hfirst : ∀ j, j < n → compute factors keys (advance j c) data ≠ .ok text) :
    verify factors keys data text lookahead c = .ok (advance n c).next := by
  induction n generalizing lookahead c with
  | zero => exact verify_of_hit hhit
  | succ n ih =>
      obtain ⟨t, ht⟩ := exists_compute_of_compute hhit c data
      have hne : t ≠ text := by
        rintro rfl
        exact hfirst 0 (Nat.succ_pos n) ht
      obtain ⟨m, rfl⟩ : ∃ m, lookahead = m + 1 := ⟨lookahead - 1, by omega⟩
      rw [verify_of_miss ht hne]
      exact ih (Nat.le_of_succ_le_succ hn) hhit fun j hj => hfirst (j + 1) (Nat.succ_lt_succ hj)

theorem exists_first (hhit : compute factors keys (advance n c) data = .ok text) :
    ∃ m, m ≤ n ∧ compute factors keys (advance m c) data = .ok text ∧
      ∀ j, j < m → compute factors keys (advance j c) data ≠ .ok text := by
  induction n using Nat.strongRecOn with
  | _ n ih =>
      by_cases hearlier : ∃ j, j < n ∧ compute factors keys (advance j c) data = .ok text
      · obtain ⟨j, hj, hjhit⟩ := hearlier
        obtain ⟨m, hm, hmhit, hfirst⟩ := ih j hj hjhit
        exact ⟨m, by omega, hmhit, hfirst⟩
      · exact ⟨n, Nat.le_refl n, hhit, fun j hj hjhit => hearlier ⟨j, hj, hjhit⟩⟩

theorem exists_verify (hn : n ≤ lookahead)
    (hhit : compute factors keys (advance n c) data = .ok text) :
    ∃ m, m ≤ n ∧ compute factors keys (advance m c) data = .ok text ∧
      verify factors keys data text lookahead c = .ok (advance m c).next := by
  obtain ⟨m, hm, hmhit, hfirst⟩ := exists_first hhit
  exact ⟨m, hm, hmhit, verify_of_first (Nat.le_trans hm hn) hmhit hfirst⟩

theorem verify_eq_ok (h : verify factors keys data text lookahead c = .ok c') :
    ∃ n, n ≤ lookahead ∧ compute factors keys (advance n c) data = .ok text ∧
      c' = (advance n c).next := by
  induction lookahead generalizing c with
  | zero =>
      obtain ⟨t, ht⟩ := exists_compute_of_verify h
      by_cases he : t = text
      · subst he
        rw [verify_of_hit ht] at h
        exact ⟨0, Nat.le_refl 0, ht, (Except.ok.inj h).symm⟩
      · rw [verify_of_last ht he] at h
        cases h
  | succ m ih =>
      obtain ⟨t, ht⟩ := exists_compute_of_verify h
      by_cases he : t = text
      · subst he
        rw [verify_of_hit ht] at h
        exact ⟨0, Nat.zero_le _, ht, (Except.ok.inj h).symm⟩
      · rw [verify_of_miss ht he] at h
        obtain ⟨n, hn, hhit, hnext⟩ := ih h
        exact ⟨n + 1, Nat.succ_le_succ hn, hhit, hnext⟩

theorem verify_of_none (hheld : ∃ t, compute factors keys c data = .ok t)
    (hnone : ∀ j ≤ lookahead, compute factors keys (advance j c) data ≠ .ok text) :
    verify factors keys data text lookahead c = .error .counterOutOfSync := by
  induction lookahead generalizing c with
  | zero =>
      obtain ⟨t, ht⟩ := hheld
      refine verify_of_last ht ?_
      rintro rfl
      exact hnone 0 (Nat.le_refl 0) ht
  | succ lookahead ih =>
      obtain ⟨t, ht⟩ := hheld
      have hne : t ≠ text := by
        rintro rfl
        exact hnone 0 (Nat.zero_le _) ht
      rw [verify_of_miss ht hne]
      refine ih (exists_compute_of_compute ht c.next data) fun j hj => ?_
      exact hnone (j + 1) (Nat.succ_le_succ hj)

end FactorSignature

end DeviceAuth
