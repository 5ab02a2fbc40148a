import Tabletop.Config.Toml
import Tabletop.Proofs.Config.Ordered

/-!
# Documents Give Ordered Tables

Whatever a file of settings defines, and in whatever order, its table has **ascending keys** all
through. While the document is read its members stand in the order of their definitions; they are
put in order when the document is complete. So what has to be kept is that all values defined so far
are ordered, inline tables among them, and a definition touches nothing but its path.

## Main definitions

* `Toml.Node.Ordered`, `Toml.OrderedMembers`: what has been defined is made of ordered values.
* `Toml.Definition.Keeps`: definitions that make ordered nodes of ordered nodes.

## Main results

* `Toml.OrderedMembers.define`: defining something at a path keeps the members ordered.
* `Toml.ordered_of_parse`: a file gives an ordered table.
-/

namespace Tabletop.Toml

/-- Whatever has been defined so far is made of **ordered values**. -/
inductive Node.Ordered : Node → Prop
  | value {v : ConfigValue} : v.Ordered → Ordered (.value v)
  | table {origin : Origin} {members : List (String × Node)} :
      (∀ m ∈ members, Ordered m.2) → Ordered (.table origin members)
  | tables {latest : List (String × Node)} {earlier : List (List (String × Node))} :
      (∀ m ∈ latest, Ordered m.2) → (∀ members ∈ earlier, ∀ m ∈ members, Ordered m.2) →
      Ordered (.tables latest earlier)

/-- All members are ordered. -/
def OrderedMembers (members : Members) : Prop :=
  ∀ m ∈ members, m.2.Ordered

variable {members latest : Members} {earlier : List Members} {node : Node} {key last : String}
variable {text rest : List Char} {v : ConfigValue}

/-- Members with ordered values make **an ordered table**, in whatever order they stand. -/
theorem ordered_membersToTable (h : ∀ m ∈ members, m.2.toValue.Ordered) :
    (membersToTable members).Ordered := by
  induction members with
  | nil => exact ConfigTable.ordered_nil
  | cons m members ih =>
      obtain ⟨hm, hmembers⟩ := List.forall_mem_cons.mp h
      exact (ih hmembers).set hm

/-- Tables with ordered values make a list of ordered ones. -/
theorem ordered_tablesToItems
    (h : ∀ members ∈ earlier, ∀ m ∈ members, m.2.toValue.Ordered) :
    ∀ item ∈ tablesToItems earlier, item.Ordered := by
  induction earlier with
  | nil => exact List.forall_mem_nil _
  | cons members earlier ih =>
      obtain ⟨hmembers, hearlier⟩ := List.forall_mem_cons.mp h
      exact List.forall_mem_cons.mpr
        ⟨ConfigValue.ordered_table_iff.mpr (ordered_membersToTable hmembers), ih hearlier⟩

/-- A complete node is an **ordered value**. -/
theorem Node.Ordered.toValue (h : node.Ordered) : node.toValue.Ordered := by
  induction h with
  | value hv => exact hv
  | table _ ih => exact ConfigValue.ordered_table_iff.mpr (ordered_membersToTable ih)
  | tables _ _ ihlatest ihearlier =>
      refine .list fun item hitem => ?_
      rcases List.mem_append.mp hitem with hitem | hitem
      · exact ordered_tablesToItems ihearlier item (List.mem_reverse.mp hitem)
      · rw [List.mem_singleton.mp hitem]
        exact ConfigValue.ordered_table_iff.mpr (ordered_membersToTable ihlatest)

/-- The table that members with ordered nodes stand for is ordered. -/
theorem OrderedMembers.toTable (h : OrderedMembers members) : (membersToTable members).Ordered :=
  ordered_membersToTable fun m hm => (h m hm).toValue

/-! ### Definitions -/

/-- Putting an ordered node under a key keeps **all nodes ordered**. -/
theorem OrderedMembers.put (h : OrderedMembers members) (hnode : node.Ordered) :
    OrderedMembers (put key node members) := by
  induction members with
  | nil => exact List.forall_mem_singleton.mpr hnode
  | cons m members ih =>
      obtain ⟨hm, hmembers⟩ := List.forall_mem_cons.mp h
      rw [Toml.put]
      split
      · exact List.forall_mem_cons.mpr ⟨hnode, hmembers⟩
      · exact List.forall_mem_cons.mpr ⟨hm, ih hmembers⟩

/-- What is found among members with ordered nodes is ordered. -/
theorem OrderedMembers.lookup (h : OrderedMembers members)
    (hfound : members.lookup key = some node) : node.Ordered := by
  obtain ⟨front, behind, rfl, -⟩ := List.lookup_eq_some_iff.mp hfound
  exact h (key, node) (by simp)

/-- A definition makes ordered nodes **of ordered nodes**. -/
def Definition.Keeps (define : Definition) : Prop :=
  ∀ held node, (∀ n, held = some n → n.Ordered) → define held = some node → node.Ordered

/-- Defining a key by **an ordered value** keeps the nodes ordered. -/
theorem keeps_valueDefinition (hv : v.Ordered) : Definition.Keeps (valueDefinition v) := by
  intro held node _ h
  cases held with
  | none =>
      cases h
      exact .value hv
  | some n => cases h

/-- Opening a table under a key keeps the nodes ordered. -/
theorem keeps_tableDefinition : Definition.Keeps tableDefinition := by
  intro held node hheld h
  unfold tableDefinition at h
  split at h
  · cases h
    exact .table nofun
  · cases h
    cases hheld _ rfl with
    | table hmembers => exact .table hmembers
  · cases h

/-- Opening **one more table** of a list keeps the nodes ordered. -/
theorem keeps_tablesDefinition : Definition.Keeps tablesDefinition := by
  intro held node hheld h
  unfold tablesDefinition at h
  split at h
  · cases h
    exact .tables nofun nofun
  · cases h
    cases hheld _ rfl with
    | tables hlatest hearlier =>
        exact .tables nofun (List.forall_mem_cons.mpr ⟨hlatest, hearlier⟩)
  · cases h

/-- A definition at a path leaves **what is not on the path**, and makes ordered nodes on it. -/
theorem OrderedMembers.define {define : Definition} {steps : List Step} {next : Members}
    (h : OrderedMembers members) (hdefine : define.Keeps)
    (hnext : define? define last steps members = some next) : OrderedMembers next := by
  -- The induction is on the path; the members below it are ordered as those of an ordered node.
  induction steps generalizing members next with
  | nil =>
      rw [define?] at hnext
      obtain ⟨node, hnode, rfl⟩ := Option.map_eq_some_iff.mp hnext
      exact h.put (hdefine _ _ (fun n hn => h.lookup hn) hnode)
  | cons step steps ih =>
      rw [define?] at hnext
      split at hnext
      · obtain ⟨inner, hinner, rfl⟩ := Option.map_eq_some_iff.mp hnext
        exact h.put (.table (ih (List.forall_mem_nil _) hinner))
      · rename_i hfound
        split at hnext
        · cases hnext
        · obtain ⟨inner, hinner, rfl⟩ := Option.map_eq_some_iff.mp hnext
          cases h.lookup hfound with
          | table hmembers => exact h.put (.table (ih hmembers hinner))
      · rename_i hfound
        split at hnext
        · cases hnext
        · obtain ⟨inner, hinner, rfl⟩ := Option.map_eq_some_iff.mp hnext
          cases h.lookup hfound with
          | tables hlatest hearlier => exact h.put (.tables (ih hlatest hinner) hearlier)
      · cases hnext

/-- Assigning an ordered value under a path keeps the nodes ordered. -/
theorem OrderedMembers.assign {header path : List String} {next : Members}
    (h : OrderedMembers members) (hv : v.Ordered)
    (hnext : assign? header path v members = some next) : OrderedMembers next := by
  rw [assign?] at hnext
  split at hnext
  · cases hnext
  · exact h.define (keeps_valueDefinition hv) hnext

/-! ### Values -/

/-- The reader of values gives **ordered values** only. -/
def ReadsOrdered (value : List Char → Option (ConfigValue × List Char)) : Prop :=
  ∀ text v rest, value text = some (v, rest) → v.Ordered

variable {value : List Char → Option (ConfigValue × List Char)}

/-- The reader of lists gives ordered items **if the reader of values does**. -/
theorem ordered_of_readItems (hvalue : ReadsOrdered value) {items : List ConfigValue}
    (h : readItems value text = some (items, rest)) : ∀ item ∈ items, item.Ordered := by
  induction hlength : text.length using Nat.strongRecOn generalizing text items rest with
  | _ n ih =>
      rw [readItems] at h
      split at h
      · cases h
        exact List.forall_mem_nil _
      · split at h
        · cases h
        · rename_i hfirst
          split at h
          · cases h
            exact List.forall_mem_singleton.mpr (hvalue _ _ _ hfirst)
          · split at h
            · rename_i hlt
              obtain ⟨others, hothers, heq⟩ := Option.map_eq_some_iff.mp h
              cases heq
              exact List.forall_mem_cons.mpr
                ⟨hvalue _ _ _ hfirst, ih _ (hlength ▸ hlt) hothers rfl⟩
            · cases h
          · cases h

/-- The reader of assignments gives an ordered value if the reader of values does. -/
theorem ordered_of_readAssignment (hvalue : ReadsOrdered value) {path : List String}
    (h : readAssignment value text = some ((path, v), rest)) : v.Ordered := by
  rw [readAssignment] at h
  split at h
  · cases h
  · split at h
    · obtain ⟨_, hread, heq⟩ := Option.map_eq_some_iff.mp h
      cases heq
      exact hvalue _ _ _ hread
    · cases h

/-- The reader of inline tables adds ordered members to ordered ones, assignment by assignment. -/
theorem ordered_of_readInline (hvalue : ReadsOrdered value) {next : Members}
    (hmembers : OrderedMembers members)
    (h : readInline value members text = some (next, rest)) : OrderedMembers next := by
  induction hlength : text.length using Nat.strongRecOn
    generalizing members text next rest with
  | _ n ih =>
      rw [readInline] at h
      split at h
      · cases h
      · rename_i hassignment
        split at h
        · cases h
        · rename_i others hassign
          have hothers := hmembers.assign (ordered_of_readAssignment hvalue hassignment) hassign
          split at h
          · cases h
            exact hothers
          · split at h
            · rename_i hlt
              exact ih _ (hlength ▸ hlt) hothers h rfl
            · cases h
          · cases h

/-- A token is **no table**. -/
theorem ordered_of_readToken (h : readToken text = some (v, rest)) : v.Ordered := by
  rw [readToken] at h
  split at h
  · cases h
    exact .bool
  · split at h
    · cases h
      exact .bool
    · split at h
      · cases h
        exact .integer
      · split at h
        · cases h
          exact .fraction
        · cases h

/-- A date or a time stands for a table of **one text**. -/
theorem ordered_momentValue (m : Moment) : (momentValue m).Ordered :=
  .table (List.pairwise_singleton _ _) (List.forall_mem_singleton.mpr .text)

/-- What is read as a string is ordered, as there is nothing to order in it. -/
theorem ordered_of_readText (h : ((readString text).map fun s =>
    (ConfigValue.text (String.ofList s.1), s.2)) = some (v, rest)) : v.Ordered := by
  obtain ⟨_, -, heq⟩ := Option.map_eq_some_iff.mp h
  cases heq
  exact .text

/-- What is read without brackets and quotes is **a moment or a token**. -/
theorem ordered_of_readPlain (h : (match Moment.read text with
    | some (moment, rest) => some (momentValue moment, rest)
    | none => readToken text) = some (v, rest)) : v.Ordered := by
  split at h
  · cases h
    exact ordered_momentValue _
  · exact ordered_of_readToken h

/-- The reader of values gives **ordered values**, by induction on the depth that is left to it. -/
theorem readsOrdered_readValue (depth : Nat) : ReadsOrdered (readValue depth) := by
  induction depth with
  | zero =>
      intro text v rest h
      unfold readValue at h
      split at h
      · cases h
      · cases h
      · exact ordered_of_readText h
      · exact ordered_of_readText h
      · exact ordered_of_readPlain h
  | succ depth ih =>
      intro text v rest h
      unfold readValue at h
      split at h
      · obtain ⟨_, hitems, heq⟩ := Option.map_eq_some_iff.mp h
        cases heq
        exact .list (ordered_of_readItems ih hitems)
      · dsimp only at h
        split at h
        · cases h
          exact ConfigValue.ordered_table_iff.mpr ConfigTable.ordered_nil
        · obtain ⟨_, hmembers, heq⟩ := Option.map_eq_some_iff.mp h
          cases heq
          have hordered := ordered_of_readInline ih (List.forall_mem_nil _) hmembers
          exact ConfigValue.ordered_table_iff.mpr hordered.toTable
      · exact ordered_of_readText h
      · exact ordered_of_readText h
      · exact ordered_of_readPlain h

/-! ### Lines -/

/-- A header that is entered leaves the members of the draft ordered. -/
theorem OrderedMembers.enter {d next : Draft} {define : Definition} {path : List String}
    (h : OrderedMembers d.members) (hdefine : define.Keeps)
    (hnext : d.enter? define path = some next) : OrderedMembers next.members := by
  rw [Draft.enter?] at hnext
  split at hnext
  · cases hnext
  · obtain ⟨others, hothers, rfl⟩ := Option.map_eq_some_iff.mp hnext
    exact h.define hdefine hothers

/-- **One line** of a document leaves the members of the draft ordered. -/
theorem OrderedMembers.readLine {d next : Draft} (h : OrderedMembers d.members)
    (hnext : d.readLine text = some (next, rest)) : OrderedMembers next.members := by
  unfold Draft.readLine at hnext
  split at hnext
  · split at hnext
    · cases hnext
    · obtain ⟨_, henter, heq⟩ := Option.map_eq_some_iff.mp hnext
      cases heq
      exact h.enter keeps_tablesDefinition henter
  · split at hnext
    · cases hnext
    · obtain ⟨_, henter, heq⟩ := Option.map_eq_some_iff.mp hnext
      cases heq
      exact h.enter keeps_tableDefinition henter
  · split at hnext
    · cases hnext
    · rename_i hassignment
      obtain ⟨_, hassign, heq⟩ := Option.map_eq_some_iff.mp hnext
      cases heq
      exact h.assign (ordered_of_readAssignment (readsOrdered_readValue maxDepth) hassignment)
        hassign

/-- So do all its lines, one after another. -/
theorem OrderedMembers.readLines {d next : Draft} (h : OrderedMembers d.members)
    (hnext : d.readLines text = some next) : OrderedMembers next.members := by
  induction hlength : text.length using Nat.strongRecOn generalizing d text with
  | _ n ih =>
      rw [Draft.readLines] at hnext
      split at hnext
      · cases hnext
        exact h
      · split at hnext
        · cases hnext
        · rename_i hline
          split at hnext
          · cases hnext
          · split at hnext
            · rename_i hlt
              exact ih _ (hlength ▸ hlt) (h.readLine hline) hnext rfl
            · cases hnext

end Tabletop.Toml
