import Tabletop.Json.Embedded
import Tabletop.Proofs.Json.Written
import Tabletop.Proofs.Lists.Keyed

/-!
# Plain Forms

In its plain form an object has every key once, with the last of its values, and the keys ascend. So
the plain form **keeps what is found last** under each key and forgets which keys were repeated: a
key that held two values holds one afterwards. Nothing else gets lost, and nothing more the second
time.

## Main definitions

* `Json.Ascends`: members with ascending keys.

## Main results

* `Json.soleMember?_normal`: what is found under a key of a plain form.
* `Json.normal_normal`: the plain form of a plain form.
* `Json.All.normal`, `Json.Within.normal`: a plain form has the bounds of the value.
* `Json.All.expand?`: a value without the key of embedded texts stands for itself.
-/

namespace Tabletop.Json

/-- **Induction over values**, one level of nesting at a time. -/
@[elab_as_elim]
theorem induction {P : Json → Prop} (null : P null) (bool : ∀ value, P (bool value))
    (number : ∀ value, P (number value)) (string : ∀ value, P (string value))
    (array : ∀ items, (∀ item ∈ items, P item) → P (array items))
    (object : ∀ members, (∀ m ∈ members, P (Prod.snd m)) → P (object members)) (v : Json) : P v :=
  @Json.rec P (fun items => ∀ item ∈ items, P item) (fun members => ∀ m ∈ members, P m.2)
    (fun m => P m.2) null bool number string array object nofun
    (fun _ _ hitem hitems => List.forall_mem_cons.mpr ⟨hitem, hitems⟩) nofun
    (fun _ _ hm hmembers => List.forall_mem_cons.mpr ⟨hm, hmembers⟩) (fun _ _ h => h) v

variable {key : String} {value v : Json} {m : String × Json} {members done : List (String × Json)}

/-! ### Members with ascending keys -/

/-- The keys of the members **ascend**, so none of them comes again. -/
def Ascends (members : List (String × Json)) : Prop :=
  members.Pairwise fun m other => m.1 < other.1

/-- Where the keys ascend, at most one member **has a given key**. -/
theorem Ascends.soleMember? (h : Ascends members) (key : String) :
    Json.soleMember? key members = (members.find? fun m => m.1 == key).map Prod.snd := by
  rw [Json.soleMember?, filter_key_eq_toList_find? (nodup_of_pairwise_lt h)]
  cases members.find? fun m => m.1 == key <;> rfl

/-! ### Plain forms -/

/-- The items of a plain form are **the plain forms** of the items. -/
theorem normalItems_eq (items : List Json) : normalItems items = items.map normal := by
  induction items with
  | nil => rfl
  | cons item items ih => rw [normalItems, ih, List.map_cons]

/-- The keys of a plain form **ascend**. -/
theorem Ascends.normalMembers (h : Ascends done) (members : List (String × Json)) :
    Ascends (normalMembers done members) := by
  induction members generalizing done with
  | nil => exact h
  | cons m members ih =>
      exact ih (pairwise_setKey h)

/-- The members of a plain form are **plain forms of members**. -/
theorem mem_of_mem_normalMembers (h : m ∈ normalMembers done members) :
    m ∈ done ∨ ∃ other ∈ members, m = (other.1, normal other.2) := by
  induction members generalizing done with
  | nil => exact .inl h
  | cons first members ih =>
      rcases ih h with hdone | ⟨other, hother, heq⟩
      · rcases mem_of_mem_setKey hdone with heq | hdone
        · exact .inr ⟨first, List.mem_cons_self, heq⟩
        · exact .inl hdone
      · exact .inr ⟨other, List.mem_cons_of_mem _ hother, heq⟩

/-- Under each key **the last** of its members is found. -/
theorem find?_normalMembers (key : String) (done members : List (String × Json)) :
    (normalMembers done members).find? (fun m => m.1 == key) =
      ((members.reverse.find? fun m => m.1 == key).map fun m => (m.1, normal m.2)).or
        (done.find? fun m => m.1 == key) := by
  induction members generalizing done with
  | nil => rfl
  | cons first members ih =>
      obtain ⟨other, value⟩ := first
      rw [normalMembers, ih, find?_setKey, List.reverse_cons, List.find?_append]
      cases members.reverse.find? fun m => m.1 == key with
      | some m => rfl
      | none =>
          by_cases hkey : key = other
          · subst hkey
            simp
          · simp [hkey, Ne.symm hkey]

/-- Members that are plain already **are left** as they are. -/
theorem normalMembers_of_ascends (h : Ascends (done ++ members))
    (hnormal : ∀ m ∈ members, normal m.2 = m.2) : normalMembers done members = done ++ members := by
  induction members generalizing done with
  | nil => exact (List.append_nil done).symm
  | cons first members ih =>
      obtain ⟨key, value⟩ := first
      obtain ⟨hvalue, hvalues⟩ := List.forall_mem_cons.mp hnormal
      have hlt : ∀ m ∈ done, m.1 < key := fun m hm =>
        (List.pairwise_append.mp h).2.2 m hm (key, value) List.mem_cons_self
      have happend : done ++ (key, value) :: members = done ++ [(key, value)] ++ members := by simp
      rw [normalMembers, hvalue, setKey_of_lt hlt, happend]
      exact ih (happend ▸ h) hvalues

/-- The plain form of a plain form is **this form**. -/
theorem normal_normal (v : Json) : v.normal.normal = v.normal := by
  induction v using induction with
  | null => rfl
  | bool => rfl
  | number => rfl
  | string => rfl
  | array items ih =>
      simp only [normal, normalItems_eq, List.map_map]
      exact congrArg _ (List.map_congr_left ih)
  | object members ih =>
      have hascends : Ascends (normalMembers [] members) := Ascends.normalMembers .nil members
      rw [normal, normal, normalMembers_of_ascends hascends]
      · rfl
      · intro m hm
        rcases mem_of_mem_normalMembers hm with hnil | ⟨other, hother, rfl⟩
        · cases hnil
        · exact ih other hother

/-- A plain form holds **under each key** the plain form of what was found last. -/
theorem soleMember?_normal (key : String) (members : List (String × Json)) :
    soleMember? key (normalMembers [] members) = ((object members).member? key).map normal := by
  have hascends : Ascends (normalMembers [] members) := Ascends.normalMembers .nil members
  rw [hascends.soleMember?, find?_normalMembers, member?]
  cases members.reverse.find? fun m => m.1 == key <;> rfl

/-- A plain form is a string just when the value is **this string**. -/
theorem text?_normal (v : Json) : v.normal.text? = v.text? := by
  cases v <;> rfl

/-! ### Bounds of plain forms -/

variable {keys : String → Prop} {num : Number → Prop} {depth : Nat}

/-- What all keys and numbers satisfy, those of the plain form **satisfy as well**. -/
theorem All.normal (h : All keys num v) : All keys num v.normal := by
  induction h with
  | null => exact .null
  | bool => exact .bool
  | number hn => exact .number hn
  | string => exact .string
  | array _ ih =>
      rw [Json.normal, normalItems_eq]
      refine .array fun item hitem => ?_
      obtain ⟨other, hother, rfl⟩ := List.mem_map.mp hitem
      exact ih other hother
  | object hkeys _ ih =>
      rw [Json.normal]
      refine .object (fun m hm => ?_) fun m hm => ?_
      · obtain hnil | ⟨other, hother, rfl⟩ := mem_of_mem_normalMembers hm
        · cases hnil
        · exact hkeys other hother
      · obtain hnil | ⟨other, hother, rfl⟩ := mem_of_mem_normalMembers hm
        · cases hnil
        · exact ih other hother

/-- A plain form is nested **no deeper** than the value. -/
theorem Within.normal (h : Within depth v) : Within depth v.normal := by
  induction h with
  | null => exact .null
  | bool => exact .bool
  | number => exact .number
  | string => exact .string
  | array _ ih =>
      rw [Json.normal, normalItems_eq]
      refine .array fun item hitem => ?_
      obtain ⟨other, hother, rfl⟩ := List.mem_map.mp hitem
      exact ih other hother
  | object _ ih =>
      rw [Json.normal]
      refine .object fun m hm => ?_
      obtain hnil | ⟨other, hother, rfl⟩ := mem_of_mem_normalMembers hm
      · cases hnil
      · exact ih other hother

/-! ### Values without embedded texts -/

section Embedded

variable {denote : String → Option Json}

/-- A list is left as it is if **all its items** are. -/
theorem expandItems_of_forall {items : List Json}
    (h : ∀ item ∈ items, expandWith denote item = some item) :
    expandItems denote items = some items := by
  induction items with
  | nil => rfl
  | cons item items ih =>
      obtain ⟨hitem, hitems⟩ := List.forall_mem_cons.mp h
      rw [expandItems, hitem, ih hitems]

/-- The same for the members of an object. -/
theorem expandMembers_of_forall (h : ∀ m ∈ members, expandWith denote m.2 = some m.2) :
    expandMembers denote members = some members := by
  induction members with
  | nil => rfl
  | cons m members ih =>
      obtain ⟨hm, hmembers⟩ := List.forall_mem_cons.mp h
      rw [expandMembers, hm, ih hmembers]

/-- A value without the key of embedded texts is left **as it is**. -/
theorem All.expandWith (h : All (· ≠ embeddedKey) num v) : expandWith denote v = some v := by
  induction h with
  | null => rfl
  | bool => rfl
  | number => rfl
  | string => rfl
  | array _ ih =>
      rw [Json.expandWith, expandItems_of_forall ih]
      rfl
  | @object members hkeys _ ih =>
      have hembeds : isEmbedding members = false := by
        cases members with
        | nil => rfl
        | cons m members => simpa [isEmbedding] using hkeys m List.mem_cons_self
      rw [Json.expandWith, hembeds, expandMembers_of_forall ih]
      rfl

/-- A value without the key of embedded texts **stands for itself**. -/
theorem All.expand? (h : All (· ≠ embeddedKey) num v) : v.expand? = some v :=
  h.expandWith

end Embedded

end Tabletop.Json
