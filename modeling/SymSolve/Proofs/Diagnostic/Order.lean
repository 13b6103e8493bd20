import Mathlib.Data.List.Basic
import SymSolve.Proofs.Diagnostic.Witness

/-!
# The order of events in a report

**Theorem (`Event.sort_eq_iff_distinct`).** The sort key of an event tells all of it but its advice.
So the events of a report come out in one order, whatever order they are reported in, exactly when
no two of them differ in their advice alone.

This holds of events that keep the advice of the catalog (`Event.sort_eq_of_catalogued`), because
the code tells that advice. It fails for callers that give advice of their own
(`Event.sort_advised`): sorting is stable, so events with one key stay as they were reported
(`Event.filter_sortByKey`).
-/

namespace SymSolve

/-! ## Sort keys are ordered -/

namespace SortKey

theorem comparePairs_eq : comparePairs =
    compareLex (compareOn Prod.fst) (compareOn Prod.snd) := rfl

theorem compareKeys_eq : compareKeys =
    compareLex (compareOn severity) (compareLex (compareOn stage) (compareLex (compareOn code)
      (compareLex (compareOn solverId) (compareLex (fun a b => comparePairs a.solve b.solve)
        (compareLex (fun a b => comparePairs a.attempt b.attempt)
          (compareLex (compareOn message) (compareOn witness))))))) := rfl

instance : Std.TransCmp comparePairs := by
  rw [comparePairs_eq]
  infer_instance

instance {β : Type} (pair : β → Nat × Nat) :
    Std.TransCmp fun a b => comparePairs (pair a) (pair b) where
  eq_swap := @fun _ _ => @Std.OrientedCmp.eq_swap _ comparePairs _ _ _
  isLE_trans := @fun _ _ _ => @Std.TransCmp.isLE_trans _ comparePairs _ _ _ _

instance : Std.TransCmp compareKeys := by
  rw [compareKeys_eq]
  infer_instance

theorem comparePairs_eq_eq {a b : Nat × Nat} : comparePairs a b = .eq ↔ a = b := by
  simp [comparePairs, Ordering.then_eq_eq, Prod.ext_iff]

theorem compareKeys_eq_eq {a b : SortKey} : compareKeys a b = .eq ↔ a = b := by
  obtain ⟨_, _, _, _, _, _, _, _⟩ := a
  obtain ⟨_, _, _, _, _, _, _, _⟩ := b
  simp [compareKeys, Ordering.then_eq_eq, comparePairs_eq_eq]

end SortKey

open SortKey

namespace Event

/-! ## Sorting by a key -/

section Keys

variable {β : Type} (key : β → SortKey)

theorem sortByKey_perm (l : List β) : (sortByKey key l).Perm l := List.mergeSort_perm _ _

theorem isLE_trans (a b c : β) (hab : (compareKeys (key a) (key b)).isLE = true)
    (hbc : (compareKeys (key b) (key c)).isLE = true) :
    (compareKeys (key a) (key c)).isLE = true :=
  Std.TransCmp.isLE_trans hab hbc

theorem isLE_total (a b : β) :
    ((compareKeys (key a) (key b)).isLE || (compareKeys (key b) (key a)).isLE) = true := by
  rw [@Std.OrientedCmp.eq_swap _ compareKeys _ (key b)]
  cases compareKeys (key a) (key b) <;> rfl

theorem pairwise_sortByKey (l : List β) :
    (sortByKey key l).Pairwise fun a b => (compareKeys (key a) (key b)).isLE = true :=
  List.pairwise_mergeSort (isLE_trans key) (isLE_total key) l

/-- **Values with one key keep their order.** -/
theorem filter_sortByKey (k : SortKey) (l : List β) :
    (sortByKey key l).filter (fun x => key x = k) = l.filter fun x => key x = k := by
  have alike : (l.filter fun x => key x = k).Pairwise fun a b =>
      (compareKeys (key a) (key b)).isLE = true := by
    apply List.pairwise_of_forall_mem_list
    intro a ha b hb
    have ha := (List.mem_filter.1 ha).2
    have hb := (List.mem_filter.1 hb).2
    rw [decide_eq_true_eq] at ha hb
    rw [ha, hb, compareKeys_eq_eq.2 rfl]
    rfl
  have kept : (l.filter fun x => key x = k).Sublist (sortByKey key l) :=
    List.sublist_mergeSort (isLE_trans key) (isLE_total key) alike List.filter_sublist
  have twice := kept.filter fun x => key x = k
  rw [List.filter_filter] at twice
  simp only [Bool.and_self] at twice
  exact (twice.eq_of_length ((sortByKey_perm key l).filter _).length_eq.symm).symm

theorem eq_of_isLE {j k : SortKey} (h : (compareKeys j k).isLE = true)
    (h' : (compareKeys k j).isLE = true) : j = k :=
  compareKeys_eq_eq.1 (Std.OrientedCmp.isLE_antisymm h h')

variable {key}

/-- The keys come out in one order. -/
theorem map_key_sortByKey {l others : List β} (same : others.Perm l) :
    (sortByKey key others).map key = (sortByKey key l).map key := by
  have sorted (l : List β) : ((sortByKey key l).map key).Pairwise fun j k =>
      (compareKeys j k).isLE = true := List.pairwise_map.2 (pairwise_sortByKey key l)
  have perm : (sortByKey key others).Perm (sortByKey key l) :=
    (sortByKey_perm key others).trans (same.trans (sortByKey_perm key l).symm)
  refine (perm.map key).eq_of_pairwise ?_ (sorted others) (sorted l)
  intro j k _ _
  exact eq_of_isLE

/-- Sorting depends on the order of the list unless keys tell its members apart. -/
theorem forall_sortByKey_eq_iff {l : List β} :
    (∀ others, others.Perm l → sortByKey key others = sortByKey key l) ↔
      ∀ a ∈ l, ∀ b ∈ l, key a = key b → a = b := by
  constructor
  · intro same a ha b hb hkey
    by_contra differ
    obtain ⟨before, after, rfl⟩ := List.append_of_mem ha
    have hb : b ∈ before ++ after := by
      rcases List.mem_append.1 hb with hb | hb
      · exact List.mem_append_left after hb
      · exact List.mem_append_right before (List.mem_of_ne_of_mem (Ne.symm differ) hb)
    obtain ⟨before', after', split⟩ := List.append_of_mem hb
    -- the two come first, one way and the other
    have first : (a :: b :: (before' ++ after')).Perm (before ++ a :: after) := by
      apply List.Perm.trans _ List.perm_middle.symm
      rw [split]
      exact List.perm_middle.symm.cons a
    have second : (b :: a :: (before' ++ after')).Perm (before ++ a :: after) :=
      (List.Perm.swap a b _).trans first
    have sorted := (same _ first).trans (same _ second).symm
    have kept := congrArg (List.filter fun x => key x = key a) sorted
    rw [filter_sortByKey, filter_sortByKey] at kept
    simp only [List.filter_cons, hkey, decide_true, if_true] at kept
    exact differ (List.cons.inj kept).1
  · intro apart others same
    have perm : (sortByKey key others).Perm (sortByKey key l) :=
      (sortByKey_perm key others).trans (same.trans (sortByKey_perm key l).symm)
    refine perm.eq_of_pairwise ?_ (pairwise_sortByKey key others) (pairwise_sortByKey key l)
    intro a b ha hb hab hba
    have ha : a ∈ l := same.subset ((sortByKey_perm key others).subset ha)
    have hb : b ∈ l := (sortByKey_perm key l).subset hb
    exact apart a ha b hb (eq_of_isLE hab hba)

/-- What a key tells of a value comes out in one order. -/
theorem map_sortByKey {γ : Type} {f : β → γ} {l others : List β} (same : others.Perm l)
    (told : ∀ a ∈ l, ∀ b ∈ l, key a = key b → f a = f b) :
    (sortByKey key others).map f = (sortByKey key l).map f := by
  have agree : ∀ xs ys : List β, (∀ a ∈ xs, a ∈ l) → (∀ b ∈ ys, b ∈ l) →
      xs.map key = ys.map key → xs.map f = ys.map f := by
    intro xs
    induction xs with
    | nil =>
      intro ys _ _ h
      cases ys with
      | nil => rfl
      | cons b ys => cases h
    | cons a xs ih =>
      intro ys hxs hys h
      cases ys with
      | nil => cases h
      | cons b ys =>
        have first := told a (hxs a List.mem_cons_self) b (hys b List.mem_cons_self)
          (List.cons.inj h).1
        have rest := ih ys (fun c hc => hxs c (List.mem_cons_of_mem a hc))
          (fun c hc => hys c (List.mem_cons_of_mem b hc)) (List.cons.inj h).2
        rw [List.map_cons, List.map_cons, first, rest]
  apply agree _ _ _ _ (map_key_sortByKey same)
  · intro a ha
    exact same.subset ((sortByKey_perm key others).subset ha)
  · intro b hb
    exact (sortByKey_perm key l).subset hb

end Keys

/-! ## The key of an event -/

variable {α : Type}

/-- The event with other advice. -/
def withAction (e : Event α) (action : String) : Event α := { e with action }

theorem rank_injective {a b : Severity} (h : a.rank = b.rank) : a = b := by
  cases a <;> cases b <;> first | rfl | cases h

theorem stage_rank_injective {a b : Stage} (h : a.rank = b.rank) : a = b := by
  cases a <;> cases b <;> first | rfl | cases h

theorem missingLast_injective {a b : Option Nat} (h : missingLast a = missingLast b) : a = b := by
  cases a <;> cases b <;> simp_all [missingLast]

/-- **The key tells everything but the advice.** -/
theorem sortKey_eq_iff {e f : Event Float} :
    e.sortKey = f.sortKey ↔ e.withAction f.action = f := by
  constructor
  · intro h
    have severity := rank_injective (congrArg SortKey.severity h)
    have stage := stage_rank_injective (congrArg SortKey.stage h)
    have code := congrArg SortKey.code h
    have solver := congrArg SortKey.solverId h
    have solve := missingLast_injective (congrArg SortKey.solve h)
    have attempt := missingLast_injective (congrArg SortKey.attempt h)
    have message := congrArg SortKey.message h
    have witness := canonicalText_injective (congrArg SortKey.witness h)
    obtain ⟨_, _, _, _, _, _, _, _, _⟩ := e
    obtain ⟨_, _, _, _, _, _, _, _, _⟩ := f
    subst severity stage code solver solve attempt message witness
    rfl
  · intro h
    rw [← h]
    rfl

/-- Events that keep the advice of the catalog are listed in one order. -/
theorem sort_eq_of_catalogued {events others : List (Event Float)}
    (catalogued : ∀ e ∈ events,
      (Catalog.canonical.find? e.code).map CatalogEntry.action = some e.action)
    (same : others.Perm events) : sort others = sort events := by
  apply forall_sortByKey_eq_iff.2 _ others same
  intro e he f hf h
  have told := sortKey_eq_iff.1 h
  have code : e.code = f.code := by
    rw [← told]
    rfl
  have action : some e.action = some f.action := by
    rw [← catalogued e he, ← catalogued f hf, code]
  rw [← told, ← Option.some.inj action]
  rfl

/-- **When the order of a list of events is lost.** Key and advice together are an event, so sorting
depends on the order of the list exactly when two events of it differ in their advice alone. -/
theorem sort_eq_iff_distinct (events : List (Event Float)) :
    (∀ e f : Event Float, e.sortKey = f.sortKey ↔ e.withAction f.action = f) ∧
    (∀ others, others.Perm events →
      (sort others).map (withAction · "") = (sort events).map (withAction · "")) ∧
    ((∀ others, others.Perm events → sort others = sort events) ↔
      ∀ e ∈ events, ∀ f ∈ events, e.withAction f.action = f → e = f) ∧
    ((∀ e ∈ events, (Catalog.canonical.find? e.code).map CatalogEntry.action = some e.action) →
      ∀ others, others.Perm events → sort others = sort events) := by
  refine ⟨fun e f => sortKey_eq_iff, ?_, ?_, fun catalogued others =>
    sort_eq_of_catalogued catalogued⟩
  · intro others same
    apply map_sortByKey same
    intro e he f hf h
    rw [← sortKey_eq_iff.1 h]
    rfl
  · rw [show (∀ others, others.Perm events → sort others = sort events) ↔ _ from
      forall_sortByKey_eq_iff]
    apply forall₂_congr
    intro e he
    apply forall₂_congr
    intro f hf
    rw [sortKey_eq_iff]

/-- A report of a zero pivot with advice of the caller's own. -/
def advisedRequest (advice : String) : EventRequest Float where
  code := .text "E_LIN_SINGULAR"
  message := .text "zero pivot"
  solverId := .text "ma27"
  solveIndex := .int 0
  action := some (.text advice)

/-- The event that becomes of it. -/
def advised (advice : String) : Event Float where
  code := "E_LIN_SINGULAR"
  severity := .error
  message := "zero pivot"
  action := advice
  stage := .factorize
  solverId := "ma27"
  solveIndex := some 0
  attemptIndex := none
  witness := none

theorem sort_eq_iff_distinct_advised :
    (advised "scale").sortKey = (advised "pivot").sortKey ∧
      ¬ ∀ others, others.Perm [advised "scale", advised "pivot"] →
        sort others = sort [advised "scale", advised "pivot"] := by
  obtain ⟨keys, -, lost, -⟩ := sort_eq_iff_distinct [advised "scale", advised "pivot"]
  refine ⟨(keys _ _).2 rfl, ?_⟩
  intro all
  have second : advised "pivot" ∈ [advised "scale", advised "pivot"] :=
    List.mem_cons_of_mem _ List.mem_cons_self
  have equal := congrArg Event.action (lost.1 all _ List.mem_cons_self _ second rfl)
  exact absurd equal (by decide)

/-- Two events with one key, which come out as they were reported. -/
theorem sort_advised :
    build (advisedRequest "scale") = .ok (advised "scale") ∧
      build (advisedRequest "pivot") = .ok (advised "pivot") ∧
      sort [advised "scale", advised "pivot"] = [advised "scale", advised "pivot"] ∧
      sort [advised "pivot", advised "scale"] = [advised "pivot", advised "scale"] ∧
      advised "scale" ≠ advised "pivot" := by
  have kept (advice advice' : String) :
      sort [advised advice, advised advice'] = [advised advice, advised advice'] := by
    apply List.mergeSort_of_pairwise
    have key : (advised advice).sortKey = (advised advice').sortKey := rfl
    simp [key, compareKeys_eq_eq.2 rfl]
  refine ⟨rfl, rfl, kept _ _, kept _ _, ?_⟩
  intro same
  exact absurd (congrArg Event.action same) (by decide)

end Event

end SymSolve
