/-!
# Runs of Characters

A reader takes the longest run of characters of a class. What it takes, and what it leaves, is
settled by the text in front of it as soon as **something stops the run**: what comes after that
makes no difference.

## Main definitions

* `Stops`: a text that does not go on with a class of characters.

## Main results

* `Stops.append`: what stops a run in front of another text.
* `takeWhile_append_of_stops`, `dropWhile_append_of_stops`: a run that was written is taken.
* `takeWhile_append`, `dropWhile_append`: a run is taken as if nothing came after what stops it.
* `eq_of_append_mark_eq`: a text is cut at the first mark in one way only.
-/

namespace Tabletop

/-- The text is empty, or its first character is not in the class `p`. -/
def Stops (p : Char → Bool) (text : List Char) : Prop :=
  ∀ c ∈ text.head?, p c = false

/-- There is nothing more to run on with at the end of a text. -/
@[simp]
theorem stops_nil (p : Char → Bool) : Stops p [] := by
  intro c hc
  cases hc

/-- A run stops in front of a character that is **not in its class**. -/
@[simp]
theorem stops_cons {p : Char → Bool} {c : Char} {text : List Char} :
    Stops p (c :: text) ↔ p c = false := by
  simp [Stops]

/-- A text that is not empty stops a run **by its first character**, whatever follows. -/
theorem Stops.append_of_ne_nil {p : Char → Bool} {text : List Char} (h : Stops p text)
    (hne : text ≠ []) (more : List Char) : Stops p (text ++ more) := by
  cases text with
  | nil => exact absurd rfl hne
  | cons c text => exact stops_cons.mpr (stops_cons.mp h)

/-- A text stops a run, if what follows it does too. -/
theorem Stops.append {p : Char → Bool} {text more : List Char} (h : Stops p text)
    (hmore : Stops p more) : Stops p (text ++ more) := by
  cases text with
  | nil => exact hmore
  | cons c text => exact h.append_of_ne_nil (List.cons_ne_nil c text) more

/-- What is left after a run of characters in the class `p` stops the run. -/
theorem stops_dropWhile (p : Char → Bool) (text : List Char) :
    Stops p (text.dropWhile p) := by
  intro c hc
  have h := List.head?_dropWhile_not p text
  rw [Option.mem_def.mp hc] at h
  exact h

/-- A run in the class `p` is what was written, where the next character stops it. -/
theorem takeWhile_append_of_stops {p : Char → Bool} {w text : List Char}
    (hw : ∀ c ∈ w, p c = true) (h : Stops p text) : (w ++ text).takeWhile p = w := by
  rw [List.takeWhile_append_of_pos hw]
  cases text with
  | nil => simp
  | cons c text => simp [stops_cons.mp h]

/-- Where the next character stops the run, it is the first one left. -/
theorem dropWhile_append_of_stops {p : Char → Bool} {w text : List Char}
    (hw : ∀ c ∈ w, p c = true) (h : Stops p text) : (w ++ text).dropWhile p = text := by
  rw [List.dropWhile_append_of_pos hw]
  cases text with
  | nil => rfl
  | cons c text => simp [stops_cons.mp h]

/-- Characters that stop a run behind a text do not change **the run at its start**. -/
theorem takeWhile_append {p : Char → Bool} {rest : List Char} (h : Stops p rest)
    (text : List Char) : (text ++ rest).takeWhile p = text.takeWhile p := by
  induction text with
  | nil => exact takeWhile_append_of_stops (w := []) nofun h
  | cons c text ih =>
      rw [List.cons_append, List.takeWhile_cons, List.takeWhile_cons, ih]

/-- Characters that stop a run behind a text **are left** by the run at its start. -/
theorem dropWhile_append {p : Char → Bool} {rest : List Char} (h : Stops p rest)
    (text : List Char) : (text ++ rest).dropWhile p = text.dropWhile p ++ rest := by
  induction text with
  | nil => exact dropWhile_append_of_stops (w := []) nofun h
  | cons c text ih =>
      rw [List.cons_append, List.dropWhile_cons, List.dropWhile_cons, ih]
      split <;> rfl

/-- A text is **cut at its first mark** in one way only: both what stands in front of the mark and
what comes behind it are settled by the text. -/
theorem eq_of_append_mark_eq {mark : Char} {w w' text text' : List Char} (hw : mark ∉ w)
    (hw' : mark ∉ w') (h : w ++ mark :: text = w' ++ mark :: text') : w = w' ∧ text = text' := by
  have hrun : ∀ {v : List Char}, mark ∉ v → ∀ c ∈ v, (c != mark) = true :=
    fun hv c hc => bne_iff_ne.mpr fun heq => hv (heq ▸ hc)
  have hstop : ∀ rest : List Char, Stops (· != mark) (mark :: rest) :=
    fun rest => stops_cons.mpr (bne_self_eq_false mark)
  have hfront := congrArg (List.takeWhile (· != mark)) h
  have hback := congrArg (List.dropWhile (· != mark)) h
  rw [takeWhile_append_of_stops (hrun hw) (hstop text),
    takeWhile_append_of_stops (hrun hw') (hstop text')] at hfront
  rw [dropWhile_append_of_stops (hrun hw) (hstop text),
    dropWhile_append_of_stops (hrun hw') (hstop text')] at hback
  exact ⟨hfront, List.tail_eq_of_cons_eq hback⟩

end Tabletop
