import Mathlib.Data.List.Nodup
import Mathlib.Data.List.Perm.Basic
import SymSolve.Diagnostic.Order
import SymSolve.Diagnostic.Report
import SymSolve.Proofs.Diagnostic.Event
import SymSolve.Proofs.Json.Doubles
import SymSolve.Proofs.Traversal

/-!
# Evidence and its text

**Theorem (`evidence_faithful`).** A payload has a JSON form exactly when all its keys are strings
and all its leaves are values that JSON knows. The form has its keys in order and is its own form;
it depends neither on the order of fields nor on whether a sequence is a list, a tuple or an array.
Evidence with one canonical text is one value, and the text is printable ASCII that reads back.

The three facts about payloads go by `Payload.parts`: what holds of the parts of a payload is
handed on to the payload (`Payload.induction_on_parts`). Objects need one lemma,
`Payload.object_eq_ok`: an object is made from fields that all have a name and a value, and its
fields are these in the order of their names. Its keys are in strict order because a mapping has no
key twice (`Payload.Proper`), and then neither the order of the fields nor a second normalization
changes anything. What is said about texts is `Json.parse?_render`, and it is said of all evidence
because every double reads back (`Json.readable`).
-/

namespace SymSolve

variable {α : Type}

/-- A property holds of a value and of everything in it, however deep. -/
inductive Everywhere {β : Type} (parts : β → List β) (p : β → Prop) : β → Prop where
  | intro (v : β) (here : p v) (below : ∀ w ∈ parts v, Everywhere parts p w) : Everywhere parts p v

theorem everywhere_iff {β : Type} {parts : β → List β} {p : β → Prop} {v : β} :
    Everywhere parts p v ↔ p v ∧ ∀ w ∈ parts v, Everywhere parts p w := by
  constructor
  · intro h
    cases h with
    | intro v here below => exact ⟨here, below⟩
  · intro h
    exact .intro v h.1 h.2

namespace Payload

/-! ## Parts of a payload -/

/-- The payloads that a payload is made of. -/
def parts : Payload α → List (Payload α)
  | .sequence items => items
  | .tuple items => items
  | .array items => items
  | .mapping fields => fields.map Prod.snd
  | _ => []

theorem sizeOf_lt_of_mem_parts {v w : Payload α} (h : w ∈ v.parts) : sizeOf w < sizeOf v := by
  cases v with
  | sequence items =>
    have := List.sizeOf_lt_of_mem (show w ∈ items from h)
    simp only [sequence.sizeOf_spec]
    omega
  | tuple items =>
    have := List.sizeOf_lt_of_mem (show w ∈ items from h)
    simp only [tuple.sizeOf_spec]
    omega
  | array items =>
    have := List.sizeOf_lt_of_mem (show w ∈ items from h)
    simp only [array.sizeOf_spec]
    omega
  | mapping fields =>
    obtain ⟨field, mem, rfl⟩ := List.mem_map.1 h
    have := List.sizeOf_lt_of_mem mem
    have : sizeOf field.2 < sizeOf field := by
      cases field
      simp only [Prod.mk.sizeOf_spec]
      omega
    simp only [mapping.sizeOf_spec]
    omega
  | _ => cases h

/-- A property that goes over from the parts of a payload to the payload. -/
theorem induction_on_parts {motive : Payload α → Prop}
    (step : ∀ v, (∀ w ∈ v.parts, motive w) → motive v) (v : Payload α) : motive v :=
  step v fun w _ => induction_on_parts step w
termination_by v
decreasing_by exact sizeOf_lt_of_mem_parts ‹_›

/-- Not a mapping with a key that is no string, and not a thing that JSON does not know. -/
def IsJson : Payload α → Prop
  | .mapping fields => ∀ field ∈ fields, field.1.isSome = true
  | .foreign _ => False
  | _ => True

/-- Every key is a string, and every leaf is null, a truth value, a number or a string. -/
def HasJsonForm (v : Payload α) : Prop := Everywhere parts IsJson v

/-- Not a mapping that has a key twice. -/
def HasDistinctKeys : Payload α → Prop
  | .mapping fields => (fields.filterMap Prod.fst).Nodup
  | _ => True

/-- No mapping has a key twice. -/
def Proper (v : Payload α) : Prop := Everywhere parts HasDistinctKeys v

/-! ## Normalization, part by part -/

theorem normalizeItems_eq (items : List (Payload α)) :
    normalizeItems items = items.mapM normalize := by
  induction items with
  | nil => rfl
  | cons v items ih =>
    rw [normalizeItems, List.mapM_cons, ih]
    cases v.normalize with
    | error cause => rfl
    | ok w => cases items.mapM normalize <;> rfl

theorem normalizeFields_eq (fields : List (Option String × Payload α)) :
    normalizeFields fields = fields.map fun field => (field.1, field.2.normalize) := by
  induction fields with
  | nil => rfl
  | cons field fields ih => simp [normalizeFields, ih]

/-- Fields in the order of their keys. -/
def inKeyOrder {β : Type} (fields : List (String × β)) : List (String × β) :=
  fields.mergeSort fun a b => a.1 ≤ b.1

theorem inKeyOrder_perm {β : Type} (fields : List (String × β)) : (inKeyOrder fields).Perm fields :=
  List.mergeSort_perm _ _

theorem pairwise_inKeyOrder {β : Type} (fields : List (String × β)) :
    (inKeyOrder fields).Pairwise fun a b => a.1 ≤ b.1 := by
  have sorted := @List.pairwise_mergeSort _ (fun a b : String × β => decide (a.1 ≤ b.1))
    (fun a b c hab hbc => by
      simp only [decide_eq_true_eq] at *
      exact String.le_trans hab hbc)
    (fun a b => by
      simp only [Bool.or_eq_true, decide_eq_true_eq]
      exact String.le_total a.1 b.1) fields
  simpa [inKeyOrder] using sorted

/-- The order in which fields are handed in is lost, if no key is there twice. -/
theorem inKeyOrder_eq_of_perm {β : Type} {fields others : List (String × β)}
    (same : fields.Perm others) (distinct : (fields.map Prod.fst).Nodup) :
    inKeyOrder fields = inKeyOrder others := by
  have perm : (inKeyOrder fields).Perm (inKeyOrder others) :=
    (inKeyOrder_perm fields).trans (same.trans (inKeyOrder_perm others).symm)
  refine perm.eq_of_pairwise ?_ (pairwise_inKeyOrder fields) (pairwise_inKeyOrder others)
  intro a b ha hb hab hba
  have ha : a ∈ fields := (inKeyOrder_perm fields).subset ha
  have hb : b ∈ fields := same.symm.subset ((inKeyOrder_perm others).subset hb)
  exact List.inj_on_of_nodup_map distinct ha hb (String.le_antisymm hab hba)

theorem inKeyOrder_map {β γ : Type} (f : β → γ) (fields : List (String × β)) :
    inKeyOrder (fields.map fun field => (field.1, f field.2)) =
      (inKeyOrder fields).map fun field => (field.1, f field.2) := by
  symm
  apply List.map_mergeSort
  intro a _ b _
  rfl

/-- Keys are names once each of them is a string. -/
theorem exists_named {β : Type} {fields : List (Option String × β)}
    (keys : ∀ field ∈ fields, field.1.isSome = true) :
    ∃ entries : List (String × β), fields = entries.map fun entry => (some entry.1, entry.2) := by
  induction fields with
  | nil => exact ⟨[], rfl⟩
  | cons field fields ih =>
    obtain ⟨entries, rest⟩ := ih fun f hf => keys f (List.mem_cons_of_mem field hf)
    obtain ⟨key, hkey⟩ := Option.isSome_iff_exists.1 (keys field List.mem_cons_self)
    refine ⟨(key, field.2) :: entries, ?_⟩
    rw [rest, List.map_cons, ← hkey]

theorem keyed_of_mapM {β : Type} {fields : List (Option String × β)} {entries : List (String × β)}
    (h : (fields.mapM fun field => field.1.map fun key => (key, field.2)) = some entries) :
    ∀ field ∈ fields, field.1.isSome = true := by
  induction fields generalizing entries with
  | nil => simp
  | cons field fields ih =>
    obtain ⟨key, v⟩ := field
    rw [List.mapM_cons] at h
    cases key with
    | none => cases h
    | some key =>
      cases rest : fields.mapM fun field => field.1.map fun key => (key, field.2) with
      | none =>
        rw [rest] at h
        cases h
      | some others => exact List.forall_mem_cons.2 ⟨rfl, ih rest⟩

theorem sortedFields?_eq_some {β : Type} {fields : List (Option String × β)}
    {sorted : List (String × β)} :
    sortedFields? fields = some sorted ↔ ∃ entries : List (String × β),
      (fields = entries.map fun entry => (some entry.1, entry.2)) ∧ sorted = inKeyOrder entries := by
  constructor
  · intro h
    obtain ⟨found, mapped, -⟩ := Option.map_eq_some_iff.1 h
    obtain ⟨entries, rfl⟩ := exists_named (keyed_of_mapM mapped)
    refine ⟨entries, rfl, ?_⟩
    have sorted := sortedFields?_named entries
    exact Option.some.inj (h.symm.trans sorted)
  · intro h
    obtain ⟨entries, rfl, rfl⟩ := h
    exact sortedFields?_named entries

theorem exists_values {β ε : Type} {entries : List (String × Except ε β)}
    (values : ∀ entry ∈ entries, ∃ v, entry.2 = .ok v) :
    ∃ done : List (String × β), entries = done.map fun entry => (entry.1, .ok entry.2) := by
  induction entries with
  | nil => exact ⟨[], rfl⟩
  | cons entry entries ih =>
    obtain ⟨done, rest⟩ := ih fun e he => values e (List.mem_cons_of_mem entry he)
    obtain ⟨v, hv⟩ := values entry List.mem_cons_self
    refine ⟨(entry.1, v) :: done, ?_⟩
    rw [rest, List.map_cons, ← hv]

theorem object_named (entries : List (String × Except WitnessError (Json α))) :
    object (entries.map fun entry => (some entry.1, entry.2)) =
      ((inKeyOrder entries).mapM fun entry : String × Except WitnessError (Json α) =>
        entry.2.map fun v => (entry.1, v)).map .object := by
  rw [object, sortedFields?_named]
  rfl

theorem object_values (entries : List (String × Json α)) :
    object (entries.map fun entry => (some entry.1, .ok entry.2)) =
      .ok (.object (inKeyOrder entries)) := by
  have named := object_named (entries.map fun entry =>
    (entry.1, (.ok entry.2 : Except WitnessError (Json α))))
  have values : ((inKeyOrder entries).map fun entry =>
      (entry.1, (.ok entry.2 : Except WitnessError (Json α)))).mapM
        (fun field => field.2.map fun v => (field.1, v)) = .ok (inKeyOrder entries) := by
    rw [mapM_eq_ok, List.forall₂_map_left_iff, List.forall₂_same]
    intro entry _
    rfl
  rw [List.map_map, inKeyOrder_map, values] at named
  exact named

/-- An object is made when every key is a string and every value has a JSON form. -/
theorem object_eq_ok {fields : List (Option String × Except WitnessError (Json α))} {v : Json α} :
    object fields = .ok v ↔ ∃ entries : List (String × Json α),
      (fields = entries.map fun entry => (some entry.1, .ok entry.2)) ∧
        v = .object (inKeyOrder entries) := by
  constructor
  · intro h
    obtain ⟨entries, rfl⟩ : ∃ entries : List (String × Except WitnessError (Json α)),
        fields = entries.map fun entry => (some entry.1, entry.2) := by
      unfold object at h
      split at h
      · cases h
      · next found =>
        obtain ⟨entries, same, -⟩ := sortedFields?_eq_some.1 found
        exact ⟨entries, same⟩
    have values : ∀ entry ∈ entries, ∃ v, entry.2 = .ok v := by
      intro entry mem
      rw [object_named] at h
      cases traversed : (inKeyOrder entries).mapM fun field => field.2.map fun v => (field.1, v) with
      | error cause =>
        rw [traversed] at h
        cases h
      | ok done =>
        obtain ⟨_, checked⟩ := exists_mapM_eq_ok.1 ⟨done, traversed⟩ entry
          ((inKeyOrder_perm entries).mem_iff.2 mem)
        cases value : entry.2 with
        | error cause =>
          rw [value] at checked
          cases checked
        | ok v => exact ⟨v, rfl⟩
    obtain ⟨done, rfl⟩ := exists_values values
    rw [List.map_map] at h
    exact ⟨done, List.map_map, Except.ok.inj (h.symm.trans (object_values done))⟩
  · intro h
    obtain ⟨entries, rfl, rfl⟩ := h
    exact object_values entries

theorem exists_object_eq_ok {fields : List (Option String × Except WitnessError (Json α))} :
    (∃ v, object fields = .ok v) ↔
      (∀ field ∈ fields, field.1.isSome = true) ∧ ∀ field ∈ fields, ∃ v, field.2 = .ok v := by
  simp only [object_eq_ok]
  constructor
  · intro h
    obtain ⟨_, entries, rfl, -⟩ := h
    simp only [List.forall_mem_map]
    exact ⟨fun _ _ => rfl, fun entry _ => ⟨entry.2, rfl⟩⟩
  · intro h
    obtain ⟨keys, values⟩ := h
    obtain ⟨entries, rfl⟩ := exists_named keys
    rw [List.forall_mem_map] at values
    obtain ⟨done, rfl⟩ := exists_values values
    exact ⟨_, done, List.map_map, rfl⟩

/-! ## Which payloads have a JSON form -/

theorem exists_normalizeItems_eq_ok {items : List (Payload α)} :
    (∃ w, (normalizeItems items).map Json.list = .ok w) ↔ ∀ v ∈ items, ∃ w, v.normalize = .ok w := by
  rw [normalizeItems_eq, ← exists_mapM_eq_ok]
  cases items.mapM normalize with
  | error cause => exact ⟨nofun, nofun⟩
  | ok ws => exact ⟨fun _ => ⟨ws, rfl⟩, fun _ => ⟨.list ws, rfl⟩⟩

/-- **A payload has a JSON form** exactly when all its keys are strings and all its leaves are
values that JSON knows. -/
theorem exists_normalize_eq_ok (v : Payload α) :
    (∃ w, v.normalize = .ok w) ↔ v.HasJsonForm := by
  induction v using induction_on_parts with
  | step v ih =>
    have below : (∀ w ∈ v.parts, ∃ u, w.normalize = .ok u) ↔ ∀ w ∈ v.parts, w.HasJsonForm :=
      forall₂_congr ih
    rw [HasJsonForm, everywhere_iff]
    refine Iff.trans ?_ (and_congr_right fun _ => below)
    have items (l : List (Payload α)) : (∃ w, (normalizeItems l).map Json.list = .ok w) ↔
        True ∧ ∀ v ∈ l, ∃ w, v.normalize = .ok w := by
      rw [exists_normalizeItems_eq_ok, true_and]
    have leaf {v : Payload α} (form : ∃ w, v.normalize = .ok w) (here : v.IsJson)
        (none : v.parts = []) : (∃ w, v.normalize = .ok w) ↔
          v.IsJson ∧ ∀ w ∈ v.parts, ∃ u, w.normalize = .ok u := by
      simp only [form, here, none, List.not_mem_nil, false_implies, implies_true, and_self]
    cases v with
    | sequence l => exact items l
    | tuple l => exact items l
    | array l => exact items l
    | mapping fields =>
      rw [normalize, normalizeFields_eq, exists_object_eq_ok]
      simp only [IsJson, Payload.parts, List.forall_mem_map]
    | foreign typeName =>
      constructor
      · rintro ⟨w, h⟩
        cases h
      · intro h
        exact h.1.elim
    | null => exact leaf ⟨_, rfl⟩ trivial rfl
    | bool b => exact leaf ⟨_, rfl⟩ trivial rfl
    | int i => exact leaf ⟨_, rfl⟩ trivial rfl
    | real x => exact leaf ⟨_, rfl⟩ trivial rfl
    | text s => exact leaf ⟨_, rfl⟩ trivial rfl

end Payload

/-! ## What comes out -/

namespace Json

/-- The values that a value is made of. -/
def parts : Json α → List (Json α)
  | .list items => items
  | .object fields => fields.map Prod.snd
  | _ => []

/-- Not an object whose keys are out of order. -/
def HasSortedKeys : Json α → Prop
  | .object fields => (fields.map Prod.fst).Pairwise (· < ·)
  | _ => True

/-- The keys of every object are in the order of their code points, each of them once. -/
def Sorted (v : Json α) : Prop := Everywhere parts HasSortedKeys v

end Json

namespace Payload

theorem normalizeItems_eq_list {items : List (Payload α)} {v : Json α}
    (h : (normalizeItems items).map Json.list = .ok v) :
    ∃ ws, v = .list ws ∧ items.mapM normalize = .ok ws := by
  rw [normalizeItems_eq] at h
  cases traversed : items.mapM normalize with
  | error cause =>
    rw [traversed] at h
    cases h
  | ok ws =>
    rw [traversed] at h
    exact ⟨ws, (Except.ok.inj h).symm, rfl⟩

theorem pairwise_lt_inKeyOrder {β : Type} {entries : List (String × β)}
    (distinct : (entries.map Prod.fst).Nodup) :
    ((inKeyOrder entries).map Prod.fst).Pairwise (· < ·) := by
  have nodup : ((inKeyOrder entries).map Prod.fst).Nodup :=
    ((inKeyOrder_perm entries).map Prod.fst).nodup_iff.2 distinct
  have sorted := List.pairwise_map.2 (pairwise_inKeyOrder entries)
  refine List.Pairwise.imp₂ ?_ sorted nodup
  intro a b le ne
  by_contra not_lt
  exact ne (String.le_antisymm le (String.not_lt.1 not_lt))

/-- **What comes out has its keys in order.** -/
theorem sorted_of_normalize {v : Payload α} (proper : v.Proper) {w : Json α}
    (h : v.normalize = .ok w) : w.Sorted := by
  induction v using induction_on_parts generalizing w with
  | step v ih =>
    obtain ⟨here, below⟩ := everywhere_iff.1 proper
    have leaf {u : Json α} (h : u.HasSortedKeys) (none : u.parts = []) : u.Sorted := by
      apply Everywhere.intro _ h
      simp [none]
    have list {l : List (Payload α)} (part : ∀ u ∈ l, u ∈ v.parts)
        (h : (normalizeItems l).map Json.list = .ok w) : w.Sorted := by
      obtain ⟨ws, rfl, traversed⟩ := normalizeItems_eq_list h
      apply Everywhere.intro _ trivial
      intro u hu
      obtain ⟨p, hp, found⟩ := exists_of_mem_mapM traversed hu
      exact ih p (part p hp) (below p (part p hp)) found
    cases v with
    | sequence l => exact list (fun _ hu => hu) h
    | tuple l => exact list (fun _ hu => hu) h
    | array l => exact list (fun _ hu => hu) h
    | mapping fields =>
      rw [normalize, normalizeFields_eq, object_eq_ok] at h
      obtain ⟨entries, same, rfl⟩ := h
      have keys : fields.filterMap Prod.fst = entries.map Prod.fst := by
        have named := congrArg (List.filterMap Prod.fst) same
        simpa [List.filterMap_map, Function.comp_def] using named
      apply Everywhere.intro
      · exact pairwise_lt_inKeyOrder (keys ▸ here)
      · intro u hu
        obtain ⟨entry, mem, rfl⟩ := List.mem_map.1 hu
        have made : (some entry.1, Except.ok entry.2) ∈
            fields.map fun field => (field.1, field.2.normalize) := by
          rw [same]
          exact List.mem_map_of_mem ((inKeyOrder_perm entries).mem_iff.1 mem)
        obtain ⟨field, hfield, value⟩ := List.mem_map.1 made
        have part : field.2 ∈ (mapping fields).parts := List.mem_map_of_mem hfield
        exact ih field.2 part (below field.2 part) (congrArg Prod.snd value)
    | foreign typeName => cases h
    | _ =>
      cases h
      exact leaf trivial rfl

/-! ## Fixed points -/

theorem ofItems_eq (items : List (Json α)) : ofItems items = items.map ofJson := by
  induction items with
  | nil => rfl
  | cons v items ih => rw [ofItems, ih, List.map_cons]

theorem ofEntries_eq (fields : List (String × Json α)) :
    ofEntries fields = fields.map fun field => (some field.1, ofJson field.2) := by
  induction fields with
  | nil => rfl
  | cons field fields ih => rw [ofEntries, ih, List.map_cons]

theorem inKeyOrder_of_sorted {β : Type} {fields : List (String × β)}
    (sorted : (fields.map Prod.fst).Pairwise (· < ·)) : inKeyOrder fields = fields := by
  apply List.mergeSort_of_pairwise
  refine (List.pairwise_map.1 sorted).imp ?_
  intro a b lt
  simp only [decide_eq_true_eq]
  exact String.not_lt.1 (String.lt_asymm lt)

/-- **Normalization changes nothing the second time.** -/
theorem normalize_ofJson {v : Json α} (sorted : v.Sorted) : (ofJson v).normalize = .ok v := by
  induction v using Json.induction with
  | list items ih =>
    obtain ⟨-, below⟩ := everywhere_iff.1 sorted
    have traversed : (items.map ofJson).mapM normalize = .ok items := by
      rw [mapM_eq_ok, List.forall₂_map_left_iff, List.forall₂_same]
      intro w hw
      exact ih w hw (below w hw)
    rw [ofJson, normalize, normalizeItems_eq, ofItems_eq, traversed]
    rfl
  | object fields ih =>
    obtain ⟨here, below⟩ := everywhere_iff.1 sorted
    have values : ∀ field ∈ fields, (some field.1, (ofJson field.2).normalize) =
        (some field.1, .ok field.2) := by
      intro field mem
      rw [ih field mem (below field.2 (List.mem_map_of_mem mem))]
    rw [ofJson, normalize, normalizeFields_eq, ofEntries_eq, List.map_map]
    simp only [Function.comp_def]
    rw [List.map_congr_left values, object_values, inKeyOrder_of_sorted here]
  | _ => rfl

/-! ## What does not matter -/

/-- Payloads that tell the same: they differ in whether sequences are lists, tuples or arrays, and
in the order in which mappings list their fields. -/
inductive Alike : Payload α → Payload α → Prop where
  | refl (v : Payload α) : Alike v v
  | symm {v w : Payload α} (h : Alike v w) : Alike w v
  | trans {u v w : Payload α} (h : Alike u v) (h' : Alike v w) : Alike u w
  | tuple (items : List (Payload α)) : Alike (.tuple items) (.sequence items)
  | array (items : List (Payload α)) : Alike (.array items) (.sequence items)
  | item (before after : List (Payload α)) {v w : Payload α} (h : Alike v w) :
      Alike (.sequence (before ++ v :: after)) (.sequence (before ++ w :: after))
  | field (before after : List (Option String × Payload α)) (key : Option String)
      {v w : Payload α} (h : Alike v w) :
      Alike (.mapping (before ++ (key, v) :: after)) (.mapping (before ++ (key, w) :: after))
  | order {fields others : List (Option String × Payload α)} (same : fields.Perm others) :
      Alike (.mapping fields) (.mapping others)

theorem proper_sequence {items : List (Payload α)} :
    (sequence items).Proper ↔ ∀ v ∈ items, v.Proper :=
  everywhere_iff.trans (true_and _).to_iff

theorem proper_mapping {fields : List (Option String × Payload α)} :
    (mapping fields).Proper ↔
      (fields.filterMap Prod.fst).Nodup ∧ ∀ field ∈ fields, field.2.Proper := by
  rw [Proper, everywhere_iff, parts, List.forall_mem_map]
  rfl

theorem Alike.proper {v w : Payload α} (h : Alike v w) : v.Proper ↔ w.Proper := by
  induction h with
  | refl v => exact Iff.rfl
  | symm _ ih => exact ih.symm
  | trans _ _ ih ih' => exact ih.trans ih'
  | tuple items => exact (everywhere_iff.trans (true_and _).to_iff).trans proper_sequence.symm
  | array items => exact (everywhere_iff.trans (true_and _).to_iff).trans proper_sequence.symm
  | item before after _ ih =>
    simp only [proper_sequence, List.forall_mem_append, List.forall_mem_cons, ih]
  | field before after key _ ih =>
    simp only [proper_mapping, List.forall_mem_append, List.forall_mem_cons, ih,
      List.filterMap_append, List.filterMap_cons]
  | order same =>
    rw [proper_mapping, proper_mapping]
    apply and_congr
    · exact (same.filterMap Prod.fst).nodup_iff
    · constructor
      · intro all field mem
        exact all field (same.mem_iff.2 mem)
      · intro all field mem
        exact all field (same.mem_iff.1 mem)

theorem sortedFields?_perm {β : Type} {fields others : List (Option String × β)}
    (same : fields.Perm others) (distinct : (fields.filterMap Prod.fst).Nodup) :
    sortedFields? others = sortedFields? fields := by
  by_cases keys : ∀ field ∈ fields, field.1.isSome = true
  · obtain ⟨entries, rfl⟩ := exists_named keys
    obtain ⟨reordered, rfl⟩ := exists_named fun field mem => keys field (same.mem_iff.2 mem)
    have injective : Function.Injective fun entry : String × β => (some entry.1, entry.2) := by
      intro a b h
      obtain ⟨key, value⟩ := Prod.mk.inj h
      exact Prod.ext (Option.some.inj key) value
    have perm : entries.Perm reordered := (List.map_perm_map_iff injective).1 same
    have nodup : (entries.map Prod.fst).Nodup := by
      simpa [List.filterMap_map, Function.comp_def] using distinct
    rw [sortedFields?_eq_some.2 ⟨reordered, rfl, rfl⟩, sortedFields?_eq_some.2 ⟨entries, rfl, rfl⟩,
      inKeyOrder_eq_of_perm perm nodup]
  · have unsorted {l : List (Option String × β)} (h : ¬ ∀ field ∈ l, field.1.isSome = true) :
        sortedFields? l = none := by
      cases found : sortedFields? l with
      | none => rfl
      | some sorted =>
        obtain ⟨entries, rfl, -⟩ := sortedFields?_eq_some.1 found
        simp at h
    rw [unsorted keys, unsorted]
    intro others
    apply keys
    intro field mem
    exact others field (same.mem_iff.1 mem)

/-- **Neither the kind of a sequence nor the order of fields matters.** -/
theorem Alike.normalize_eq {v w : Payload α} (h : Alike v w) (proper : v.Proper) :
    w.normalize = v.normalize := by
  induction h with
  | refl v => rfl
  | symm h ih => exact (ih (h.proper.2 proper)).symm
  | trans h _ ih ih' => exact (ih' (h.proper.1 proper)).trans (ih proper)
  | tuple items => rfl
  | array items => rfl
  | item before after h ih =>
    have part := proper_sequence.1 proper _ (List.mem_append_right before List.mem_cons_self)
    simp only [normalize, normalizeItems_eq, List.mapM_append, List.mapM_cons, ih part]
  | field before after key h ih =>
    have part := (proper_mapping.1 proper).2 _ (List.mem_append_right before List.mem_cons_self)
    simp only [normalize, normalizeFields_eq, List.map_append, List.map_cons, ih part]
  | order same =>
    have distinct := (proper_mapping.1 proper).1
    have sorted := sortedFields?_perm (same.map fun field => (field.1, field.2.normalize))
      (by rwa [List.filterMap_map])
    rw [normalize, normalize, normalizeFields_eq, normalizeFields_eq, object, object, sorted]

end Payload

/-! ## The canonical text -/

/-- No evidence has a text of its own. -/
theorem canonicalText_injective {a b : Option (Json Float)}
    (same : canonicalText a = canonicalText b) : a = b := by
  have unlike (v : Json Float) : v.render ≠ "" := by
    intro empty
    have read := Json.parse?_render (Json.readable v)
    rw [empty] at read
    cases read
  cases a with
  | none =>
    cases b with
    | none => rfl
    | some w => exact absurd same.symm (unlike w)
  | some v =>
    cases b with
    | none => exact absurd same (unlike v)
    | some w => rw [Json.render_injective (Json.readable v) (Json.readable w) same]

/-- **Evidence is told faithfully.** -/
theorem evidence_faithful {v : Payload Float} (proper : v.Proper) (a b : Option (Json Float)) :
    ((∃ w, v.normalize = .ok w) ↔ v.HasJsonForm) ∧
    (∀ w, v.normalize = .ok w → w.Sorted ∧ (Payload.ofJson w).normalize = .ok w) ∧
    (∀ u, v.Alike u → u.normalize = v.normalize) ∧
    (canonicalText a = canonicalText b → a = b) ∧
    (∀ w ∈ a, Json.ArePrintable (canonicalText a).toList ∧
      Json.parse? (canonicalText a) = some w) := by
  refine ⟨v.exists_normalize_eq_ok, ?_, fun u alike => alike.normalize_eq proper,
    canonicalText_injective, ?_⟩
  · intro w h
    have sorted := Payload.sorted_of_normalize proper h
    exact ⟨sorted, Payload.normalize_ofJson sorted⟩
  · intro w hw
    cases hw
    exact ⟨Json.printable_render (Json.readable w), Json.parse?_render (Json.readable w)⟩

/-- How a workspace has grown, as a caller tells it. -/
def growthEvidence : Payload Float :=
  .mapping [(some "lengths", .array [.int 10, .int 100]), (some "growth", .tuple [.real 1.5, .null])]

/-- How a workspace has grown, as an event tells it. -/
def growthForm : Json Float :=
  .object [("growth", .list [.real 1.5, .null]), ("lengths", .list [.int 10, .int 100])]

theorem normalize_growthEvidence : growthEvidence.normalize = .ok growthForm := by
  simp [growthEvidence, growthForm, Payload.normalize, Payload.normalizeFields,
    Payload.normalizeItems, Payload.object, Payload.sortedFields?, List.mergeSort, Except.map]
  rfl

theorem proper_growthEvidence : growthEvidence.Proper := by
  have leaf {v : Payload Float} (here : v.HasDistinctKeys) (none : v.parts = []) : v.Proper :=
    .intro v here (by simp [none])
  rw [growthEvidence, Payload.proper_mapping]
  refine ⟨by decide, ?_⟩
  simp only [List.forall_mem_cons]
  refine ⟨.intro _ trivial ?_, .intro _ trivial ?_, nofun⟩
  · exact List.forall_mem_cons.2 ⟨leaf trivial rfl, List.forall_mem_singleton.2 (leaf trivial rfl)⟩
  · exact List.forall_mem_cons.2 ⟨leaf trivial rfl, List.forall_mem_singleton.2 (leaf trivial rfl)⟩

theorem evidence_faithful_growth :
    growthEvidence.Proper ∧ growthEvidence.HasJsonForm ∧
      growthForm.Sorted ∧ (Payload.ofJson growthForm).normalize = .ok growthForm ∧
      canonicalText (some growthForm) ≠ canonicalText (none : Option (Json Float)) ∧
      Json.parse? (canonicalText (some growthForm)) = some growthForm := by
  obtain ⟨form, normal, -, differs, read⟩ :=
    evidence_faithful proper_growthEvidence (some growthForm) none
  have normal := normal growthForm normalize_growthEvidence
  refine ⟨proper_growthEvidence, form.1 ⟨_, normalize_growthEvidence⟩, normal.1, normal.2, ?_,
    (read growthForm rfl).2⟩
  intro same
  cases differs same

end SymSolve
