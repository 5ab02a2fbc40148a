import Tabletop.Config.Value
import Tabletop.Proofs.Lists.Keyed

/-!
# Ordered Values

A table of a configuration keeps its keys in ascending order, and so does every table inside it,
**however deep**. Tables are made by setting one key after another, and merging layers does nothing
else, so what is made of ordered values is ordered again.

## Main definitions

* `ConfigValue.Ordered`, `ConfigTable.Ordered`: values and tables with ascending keys all through.

## Main results

* `ConfigTable.Ordered.merge`: layers that are ordered make an ordered one.
* `ConfigTable.Ordered.unwrap`: so is a table without its wrappers.
-/

namespace Tabletop

/-- In every table of the value **the keys ascend**. -/
inductive ConfigValue.Ordered : ConfigValue → Prop
  | bool {value : Bool} : Ordered (.bool value)
  | integer {value : Int} : Ordered (.integer value)
  | fraction : Ordered .fraction
  | text {value : String} : Ordered (.text value)
  | list {items : List ConfigValue} : (∀ item ∈ items, Ordered item) → Ordered (.list items)
  | table {members : List (String × ConfigValue)} :
      members.Pairwise (fun m other => m.1 < other.1) → (∀ m ∈ members, Ordered m.2) →
      Ordered (.table members)

/-- The keys of a table **ascend**, and so do those in its values. -/
structure ConfigTable.Ordered (table : ConfigTable) : Prop where
  ascending : table.Pairwise fun m other => m.1 < other.1
  values : ∀ m ∈ table, m.2.Ordered

/-- A table is ordered as a value just when it is ordered **as a table**. -/
theorem ConfigValue.ordered_table_iff {members : ConfigTable} :
    ConfigValue.Ordered (.table members) ↔ members.Ordered := by
  constructor
  · intro h
    cases h with
    | table hascending hvalues => exact ⟨hascending, hvalues⟩
  · exact fun h => .table h.ascending h.values

/-- **Induction over values**, one level of nesting at a time. -/
@[elab_as_elim]
theorem ConfigValue.induction {P : ConfigValue → Prop} (bool : ∀ value, P (bool value))
    (integer : ∀ value, P (integer value)) (fraction : P fraction) (text : ∀ value, P (text value))
    (list : ∀ items, (∀ item ∈ items, P item) → P (list items))
    (table : ∀ members, (∀ m ∈ members, P (Prod.snd m)) → P (table members)) (v : ConfigValue) :
    P v :=
  @ConfigValue.rec P (fun items => ∀ item ∈ items, P item) (fun members => ∀ m ∈ members, P m.2)
    (fun m => P m.2) bool integer fraction text list table nofun
    (fun _ _ hitem hitems => List.forall_mem_cons.mpr ⟨hitem, hitems⟩) nofun
    (fun _ _ hm hmembers => List.forall_mem_cons.mpr ⟨hm, hmembers⟩) (fun _ _ h => h) v

namespace ConfigTable

variable {table base later : ConfigTable} {key : String} {value v : ConfigValue}

/-- There is nothing to order in an empty table. -/
theorem ordered_nil : Ordered [] :=
  ⟨.nil, nofun⟩

/-- Setting an ordered value keeps a table **ordered**. -/
theorem Ordered.set (h : table.Ordered) (hvalue : value.Ordered) :
    (set key value table).Ordered := by
  refine ⟨pairwise_setKey h.ascending, fun m hm => ?_⟩
  rcases mem_of_mem_setKey hm with rfl | hm
  · exact hvalue
  · exact h.values m hm

/-- So does setting several, one after another. -/
theorem Ordered.setAll (h : table.Ordered) {members : List (String × ConfigValue)}
    (hmembers : ∀ m ∈ members, m.2.Ordered) : (table.setAll members).Ordered := by
  induction members generalizing table with
  | nil => exact h
  | cons m members ih =>
      obtain ⟨hm, hothers⟩ := List.forall_mem_cons.mp hmembers
      exact ih (h.set hm) hothers

/-- What is found in an ordered table **is ordered**. -/
theorem Ordered.lookup (h : table.Ordered) (hfound : table.lookup key = some v) : v.Ordered := by
  obtain ⟨front, behind, rfl, -⟩ := List.lookup_eq_some_iff.mp hfound
  exact h.values (key, v) (by simp)

/-! ### Layers -/

/-- Merging sets **one key after another**, to values that are merged in the same way. -/
theorem Ordered.mergeMembers (h : base.Ordered) {members : List (String × ConfigValue)}
    (hmembers : ∀ m ∈ members, ∀ earlier : Option ConfigValue,
      (∀ v, earlier = some v → v.Ordered) → (mergeValue earlier m.2).Ordered) :
    Ordered (mergeMembers base members) := by
  induction members generalizing base with
  | nil => exact h
  | cons m members ih =>
      obtain ⟨key, value⟩ := m
      obtain ⟨hm, hothers⟩ := List.forall_mem_cons.mp hmembers
      exact ih (h.set (hm _ fun v hv => h.lookup hv)) hothers

/-- What a later layer makes of **ordered values** is ordered, by induction on the later one. -/
theorem ordered_mergeValue (hvalue : value.Ordered) {earlier : Option ConfigValue}
    (hearlier : ∀ v, earlier = some v → v.Ordered) : (mergeValue earlier value).Ordered := by
  induction value using ConfigValue.induction generalizing earlier with
  | bool => exact hvalue
  | integer => exact hvalue
  | fraction => exact hvalue
  | text => exact hvalue
  | list => exact hvalue
  | table members ih =>
      unfold mergeValue
      split
      · rename_i base
        have hmembers := (ConfigValue.ordered_table_iff.mp hvalue).values
        exact ConfigValue.ordered_table_iff.mpr <|
          (ConfigValue.ordered_table_iff.mp (hearlier _ rfl)).mergeMembers
            fun m hm _ h => ih m hm (hmembers m hm) h
      · exact hvalue

/-- Layers that are ordered **make an ordered one**. -/
theorem Ordered.merge (h : base.Ordered) (hlater : later.Ordered) : (base.merge later).Ordered :=
  h.mergeMembers fun m hm _ hearlier => ordered_mergeValue (hlater.values m hm) hearlier

/-! ### Wrappers -/

/-- What an ordered table stands for is ordered: the value that it wraps, or the table itself. -/
theorem Ordered.unwrapTable? (h : table.Ordered) (hv : unwrapTable? table = some v) :
    v.Ordered := by
  rw [ConfigTable.unwrapTable?] at hv
  split at hv
  · cases hv
  · cases hv
    cases hwrapped : List.lookup wrappedKey table with
    | none => exact ConfigValue.ordered_table_iff.mpr h
    | some value => exact h.lookup hwrapped

end ConfigTable

end Tabletop
