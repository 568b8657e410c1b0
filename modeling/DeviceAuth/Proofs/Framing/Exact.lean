import DeviceAuth.Proofs.Except
import DeviceAuth.Proofs.Framing

namespace DeviceAuth.Framing

inductive Round where
  | done
  | taken (component rest : Bytes)
  | refused (why : FormatFault)

def round : Bytes → Round
  | [] => .done
  | a :: b :: c :: d :: rest =>
      let n := Bytes.ofBigEndian [a, b, c, d]
      if rest.length < n then .refused (.componentLength n rest.length)
      else .taken (rest.take n) (rest.drop n)
  | _ => .refused .truncatedLength

-- The loop, with the components that it has taken so far; nothing if it is still going after
-- `limit` rounds.
def loop : Nat → List Bytes → Bytes → Option (Except FormatFault (List Bytes))
  | 0, _, _ => none
  | limit + 1, taken, b =>
      match round b with
      | .done => some (.ok taken)
      | .taken c rest => loop limit (taken ++ [c]) rest
      | .refused why => some (.error why)

theorem loop_eq {b : Bytes} {limit : Nat} (taken : List Bytes) (h : b.length / 4 < limit) :
    loop limit taken b = some ((split b).map (taken ++ ·)) := by
  induction b using split.induct generalizing limit taken with
  | case1 =>
      obtain ⟨limit, rfl⟩ := Nat.exists_eq_succ_of_ne_zero (Nat.ne_zero_of_lt h)
      simp [loop, round, split, Except.map]
  | case2 b0 b1 b2 b3 rest n =>
      rename_i hlt
      obtain ⟨limit, rfl⟩ := Nat.exists_eq_succ_of_ne_zero (Nat.ne_zero_of_lt h)
      rw [loop, round, if_pos hlt, split, if_pos hlt]
      rfl
  | case3 b0 b1 b2 b3 rest n hle =>
      rename_i ih
      obtain ⟨limit, rfl⟩ := Nat.exists_eq_succ_of_ne_zero (Nat.ne_zero_of_lt h)
      have hrest : (rest.drop n).length / 4 < limit := by
        simp only [List.length_cons] at h
        rw [List.length_drop]
        omega
      rw [loop, round, if_neg hle, split, if_neg hle]
      dsimp only
      rw [ih _ hrest]
      cases split (rest.drop n) with
      | error why => rfl
      | ok cs => simp [Except.map]
  | case4 b hnil hcons =>
      obtain ⟨limit, rfl⟩ := Nat.exists_eq_succ_of_ne_zero (Nat.ne_zero_of_lt h)
      rw [loop, round, split]
      · rfl
      all_goals assumption

theorem loop_ends (b : Bytes) : loop (b.length / 4 + 1) [] b = some (split b) := by
  rw [loop_eq [] (Nat.lt_succ_self _)]
  cases split b <;> rfl

-- What no component begins with: a length that is cut off, or one that more bytes should follow.
inductive Broken : Bytes → FormatFault → Prop
  | truncated {tail : Bytes} : tail ≠ [] → tail.length < 4 → Broken tail .truncatedLength
  | overlong {n : Nat} {rest : Bytes} : n < 2 ^ 32 → rest.length < n →
      Broken (Bytes.bigEndian 4 n ++ rest) (.componentLength n rest.length)

theorem broken_of_split {b : Bytes} {why : FormatFault} (h : split b = .error why) :
    ∃ cs tail, (∀ c ∈ cs, Fits c) ∧ b = join cs ++ tail ∧ Broken tail why := by
  induction b using split.induct with
  | case1 =>
      rw [split] at h
      cases h
  | case2 b0 b1 b2 b3 rest n hlt =>
      rw [split, if_pos hlt] at h
      cases h
      have hn : n < 2 ^ 32 := by simpa using Bytes.ofBigEndian_lt [b0, b1, b2, b3]
      have hbytes : Bytes.bigEndian 4 n = [b0, b1, b2, b3] :=
        Bytes.bigEndian_ofBigEndian [b0, b1, b2, b3]
      refine ⟨[], _, by simp, rfl, ?_⟩
      have hbroken := Broken.overlong hn hlt
      rwa [hbytes] at hbroken
  | case3 b0 b1 b2 b3 rest n hle ih =>
      rw [split, if_neg hle] at h
      cases hrest : split (rest.drop n) with
      | ok ds =>
          rw [hrest] at h
          cases h
      | error other =>
          rw [hrest] at h
          cases h
          obtain ⟨cs, tail, hfits, hdrop, hbroken⟩ := ih hrest
          -- The component before the break is one that splitting alone would have read.
          have hread : split (b0 :: b1 :: b2 :: b3 :: rest.take n) = .ok [rest.take n] := by
            have hall : ¬(rest.take n).length < n := by
              rw [List.length_take]
              omega
            have hnone : (rest.take n).drop n = [] :=
              List.drop_eq_nil_of_le (List.length_take_le _ _)
            rw [split, if_neg hall, List.take_take, Nat.min_self, hnone, split]
            rfl
          obtain ⟨hone, hjoin⟩ := fits_and_join_of_split hread
          refine ⟨rest.take n :: cs, tail, ?_, ?_, hbroken⟩
          · exact List.forall_mem_cons.mpr ⟨hone _ List.mem_cons_self, hfits⟩
          · have hcons : join (rest.take n :: cs) = join [rest.take n] ++ join cs := by
              simp
            rw [hcons, hjoin, List.append_assoc, ← hdrop]
            simp [List.take_append_drop]
  | case4 b hnil hcons =>
      have hshort : b.length < 4 := by
        rcases b with _ | ⟨b0, _ | ⟨b1, _ | ⟨b2, _ | ⟨b3, rest⟩⟩⟩⟩
        case cons.cons.cons.cons => exact absurd rfl (hcons b0 b1 b2 b3 rest)
        all_goals simp
      rw [split] at h
      · cases h
        exact ⟨[], b, by simp, rfl, .truncated hnil hshort⟩
      · exact hnil
      · exact hcons

theorem join_and_split_exact :
    (∀ cs, (∀ c ∈ cs, Fits c) → split (join cs) = .ok cs) ∧
    (∀ b, loop (b.length / 4 + 1) [] b = some (split b) ∧
      ((∃ cs, split b = .ok cs ∧ (∀ c ∈ cs, Fits c) ∧ join cs = b) ∨
        ∃ why, split b = .error why ∧
          (∃ cs tail, (∀ c ∈ cs, Fits c) ∧ b = join cs ++ tail ∧ Broken tail why) ∧
          ∀ cs, (∀ c ∈ cs, Fits c) → join cs ≠ b)) ∧
    ∀ cs ds, (∀ c ∈ cs, Fits c) → (∀ d ∈ ds, Fits d) → join cs = join ds → cs = ds := by
  refine ⟨fun cs => split_join, fun b => ⟨loop_ends b, ?_⟩, fun cs ds => join_injective⟩
  cases hsplit : split b with
  | ok cs => exact .inl ⟨cs, rfl, fits_and_join_of_split hsplit⟩
  | error why =>
      refine .inr ⟨why, rfl, broken_of_split hsplit, fun cs hfits hjoin => ?_⟩
      rw [← hjoin, split_join hfits] at hsplit
      cases hsplit

theorem empty_components_kept :
    (∀ c ∈ [[], [], [0, 0, 0, 1], []], Fits c) ∧
      split (join [[], [], [0, 0, 0, 1], []]) = .ok [[], [], [0, 0, 0, 1], []] := by
  have hfits : ∀ c ∈ [[], [], [0, 0, 0, 1], []], Fits c := by
    simp [Fits]
  exact ⟨hfits, join_and_split_exact.1 _ hfits⟩

end DeviceAuth.Framing
