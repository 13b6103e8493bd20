import Mathlib.Data.List.Forall2

/-!
# Traversals that may fail

A traversal of a list with a function that may fail succeeds exactly when the function does on
every element.
-/

namespace SymSolve

variable {β γ ε : Type} {f : β → Except ε γ} {l : List β}

theorem mapM_eq_ok {r : List γ} :
    l.mapM f = .ok r ↔ List.Forall₂ (fun b c => f b = .ok c) l r := by
  induction l generalizing r with
  | nil =>
    rw [List.mapM_nil, List.forall₂_nil_left_iff]
    exact ⟨fun h => (Except.ok.inj h).symm, fun h => congrArg Except.ok h.symm⟩
  | cons b l ih =>
    rw [List.mapM_cons, List.forall₂_cons_left_iff]
    cases first : f b with
    | error cause => exact ⟨nofun, fun ⟨_, _, found, _⟩ => nomatch found⟩
    | ok c =>
      cases rest : l.mapM f with
      | error cause =>
        refine ⟨nofun, ?_⟩
        rintro ⟨_, cs, _, found, _⟩
        rw [← ih, rest] at found
        cases found
      | ok cs =>
        refine ⟨?_, ?_⟩
        · rintro ⟨⟩
          exact ⟨c, cs, rfl, ih.1 rest, rfl⟩
        · rintro ⟨c', cs', same, found, rfl⟩
          cases same
          rw [← ih, rest] at found
          cases found
          rfl

theorem exists_mapM_eq_ok : (∃ r, l.mapM f = .ok r) ↔ ∀ b ∈ l, ∃ c, f b = .ok c := by
  constructor
  · intro h b hb
    obtain ⟨r, h⟩ := h
    rw [mapM_eq_ok] at h
    induction h with
    | nil => cases hb
    | cons found _ ih =>
      rcases List.mem_cons.1 hb with rfl | hb
      · exact ⟨_, found⟩
      · exact ih hb
  · intro h
    simp only [mapM_eq_ok]
    induction l with
    | nil => exact ⟨[], .nil⟩
    | cons b l ih =>
      obtain ⟨c, found⟩ := h b List.mem_cons_self
      obtain ⟨r, rest⟩ := ih fun d hd => h d (List.mem_cons_of_mem b hd)
      exact ⟨c :: r, .cons found rest⟩

/-- What comes out of a traversal comes from an element. -/
theorem exists_of_mem_mapM {r : List γ} (h : l.mapM f = .ok r) {c : γ} (hc : c ∈ r) :
    ∃ b ∈ l, f b = .ok c := by
  rw [mapM_eq_ok] at h
  induction h with
  | nil => cases hc
  | cons found _ ih =>
    rcases List.mem_cons.1 hc with rfl | hc
    · exact ⟨_, List.mem_cons_self, found⟩
    · obtain ⟨b, hb, found⟩ := ih hc
      exact ⟨b, List.mem_cons_of_mem _ hb, found⟩

/-- A traversal with a function that finds something for every element. -/
theorem exists_mapM_eq_some {find : β → Option γ} (found : ∀ b ∈ l, ∃ c, find b = some c) :
    ∃ r, l.mapM find = some r ∧ List.Forall₂ (fun b c => find b = some c) l r := by
  induction l with
  | nil => exact ⟨[], rfl, .nil⟩
  | cons b l ih =>
    obtain ⟨c, first⟩ := found b List.mem_cons_self
    obtain ⟨r, rest, each⟩ := ih fun d hd => found d (List.mem_cons_of_mem b hd)
    exact ⟨c :: r, by simp [first, rest], .cons first each⟩

end SymSolve
