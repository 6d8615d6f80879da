/-!
# Strictly sorted lists

A list that increases strictly along a text key is determined by its members.
-/

namespace PluginRegistry.Sorted

/-- Two strictly increasing lists with the same members are equal. -/
theorem eq_of_mem_iff {γ : Type} (key : γ → String) {l r : List γ}
    (hl : l.Pairwise (fun a b => key a < key b)) (hr : r.Pairwise (fun a b => key a < key b))
    (h : ∀ e, e ∈ l ↔ e ∈ r) : l = r := by
  induction l generalizing r with
  | nil =>
    cases r with
    | nil => rfl
    | cons b t => exact absurd ((h b).2 (by simp)) (by simp)
  | cons a t ih =>
    cases r with
    | nil => exact absurd ((h a).1 (by simp)) (by simp)
    | cons b u =>
      obtain ⟨ha, ht⟩ := List.pairwise_cons.1 hl
      obtain ⟨hb, hu⟩ := List.pairwise_cons.1 hr
      have hab : a = b := by
        rcases List.mem_cons.1 ((h a).1 (by simp)) with e | e
        · exact e
        · rcases List.mem_cons.1 ((h b).2 (by simp)) with e' | e'
          · exact e'.symm
          · exact absurd (String.lt_trans (hb a e) (ha b e')) (String.lt_irrefl _)
      subst hab
      rw [ih ht hu fun e => ?_]
      constructor
      · intro he
        rcases List.mem_cons.1 ((h e).1 (by simp [he])) with e' | e'
        · exact absurd (ha e he) (e' ▸ String.lt_irrefl _)
        · exact e'
      · intro he
        rcases List.mem_cons.1 ((h e).2 (by simp [he])) with e' | e'
        · exact absurd (hb e he) (e' ▸ String.lt_irrefl _)
        · exact e'

end PluginRegistry.Sorted
