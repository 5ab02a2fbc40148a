import Tabletop.Proofs.Formula.Canonical
import Tabletop.Proofs.Server.RollingPaths
import Tabletop.Proofs.Server.Shown

/-!
# Paths That Need No Encoding

The canonical spelling of a formula and the name of a saved roll can stand in a path **as they
are**. The one is made of digits, signs and the mark between the numbers of dice, the other of
letters, digits and three marks more. None of these characters ends a segment or begins an encoded
byte, so both are found in their segment and stand for themselves; in particular a plus sign stays
one. And no formula is spelt like the fixed segment that stands in the same place.

A roll depends on the terms of a formula alone. So it does not matter which text for these terms is
sent, nor whether it is encoded.

## Main results

* `Endpoint.ofPath?_canonical`, `Percent.decode?_canonical`: the path of a canonical spelling.
* `Server.answer_of_same_terms`: texts for the same terms are answered alike.
* `Server.paths_stand_for_themselves`: what is asked for by canonical spellings and by names.
-/

namespace Tabletop

/-! ### Canonical spellings in paths -/

/-- The characters of canonical spellings are **plain** ASCII characters. -/
theorem mem_spellTerms_plain {ts : List SignedTerm} {c : Char} (h : c ∈ spellTerms ts) :
    (c.toNat < 128 ∧ c ≠ '%') ∧ Endpoint.isSegmentChar c = true := by
  rcases mem_spellTerms h with hdigit | rfl | ⟨sign, rfl⟩
  · exact isRollNameChar_plain (by simp [isRollNameChar, Char.isAlphanum, hdigit])
  · decide
  · cases sign <;> decide

/-- The empty text denotes **no formula**. -/
theorem Formula.ne_empty_of_parse {text : String} {f : Formula} (h : Formula.parse text = .ok f) :
    text ≠ "" := by
  rintro rfl
  have hfault : Formula.parse "" = .error ⟨.emptyInput, 0, ""⟩ := by decide +kernel
  rw [hfault] at h
  cases h

variable {f g : Formula}

/-- A canonical spelling in a path is **the formula to be rolled**. -/
theorem Endpoint.ofPath?_canonical (h : f.WellFormed) :
    ofPath? ("/roll/" ++ f.canonical) = some (.formula (spellTerms f.terms)) := by
  refine ofPath?_formula (List.all_eq_true.mpr fun c hc => (mem_spellTerms_plain hc).2) ?_ ?_
  · intro hempty
    refine Formula.ne_empty_of_parse h.parse_canonical ?_
    rw [Formula.canonical, hempty]
  · -- The fixed segment begins with a letter that no formula is spelt with.
    intro hfixed
    have hmem : 's' ∈ spellTerms f.terms := by
      rw [hfixed]
      decide +kernel
    rcases mem_spellTerms hmem with hdigit | hmark | ⟨sign, hsign⟩
    · revert hdigit
      decide
    · revert hmark
      decide
    · cases sign <;> revert hsign <;> decide

/-- A canonical spelling **stands for itself**. -/
theorem Percent.decode?_canonical (f : Formula) : decode? (spellTerms f.terms) = some f.canonical :=
  decode?_plain fun _ hc => (mem_spellTerms_plain hc).1

/-- What is rolled depends on **the terms** alone. -/
theorem Formula.rollWith_congr {ε σ : Type} (draw : Draw ε σ) (h : g.terms = f.terms) (s : σ) :
    g.rollWith draw s = f.rollWith draw s := by
  rw [rollWith, rollWith, canonical, canonical, h]

/-! ### What is asked for -/

/-- A request asks **to be shown** what is at a path. -/
def Request.Shows (r : Request) (path : String) : Prop :=
  r.method = .get ∧ r.path = path

namespace Server

variable {s : Server} {r other : Request} {text : String}

/-- A request for a canonical spelling asks for this text. -/
theorem task?_of_canonical (h : f.WellFormed) (hshows : r.Shows ("/roll/" ++ f.canonical)) :
    r.task? = some (.formula f.canonical) :=
  Request.task?_of_decode? hshows.1 (hshows.2 ▸ Endpoint.ofPath?_canonical h)
    (Percent.decode?_canonical f)

/-- Two requests to be shown something **are dressed alike**. -/
theorem dress_of_method (h : r.method = other.method) (reply : Reply) :
    s.dress r reply = s.dress other reply := by
  rw [dress, dress, h]

/-- A text is answered with **the roll of its terms** from the next key. -/
theorem answer_of_same_terms (htask : r.task? = some (.formula text))
    (hparse : Formula.parse text = .ok g) (hterms : g.terms = f.terms) {roll : Roll}
    {next : Source} (hroll : f.roll s.takeSource.1 = (.ok roll, next)) :
    s.answer r = (s.dress r (.json 200 roll.toJson), s.takeSource.2) := by
  have hsame : g.rollWith Source.draw s.takeSource.1 = (.ok roll, next) :=
    (Formula.rollWith_congr _ hterms _).trans hroll
  rw [answer_of_task? htask, taskReply_formula hparse hsame]

/-- A roll of a formula that was read is told under **its canonical spelling**. -/
theorem expression_of_roll (hparse : Formula.parse text = .ok f) {source next : Source}
    {roll : Roll} (hroll : f.roll source = (.ok roll, next)) : roll.expression = f.canonical :=
  (Formula.shows_of_rollWith Source.honest hparse hroll).1

/-- **Canonical spellings and names stand in paths as they are.** From every server, and for every
text that denotes a formula:

* a request for the canonical spelling of the formula is answered with its roll, which is shown
  under this spelling; and with any other text for the same terms, every byte of it encoded, the
  whole answer is the same;
* under every name that a roll may have, the text is saved and shown, and nothing changes under
  other names; a request for the same path is then answered with a roll of the formula, under its
  canonical spelling too. -/
theorem paths_stand_for_themselves (s : Server) {text : String} {f : Formula}
    (hparse : Formula.parse text = .ok f) :
    (∀ plain : Request, plain.Shows ("/roll/" ++ f.canonical) →
      (∃ roll next shown, f.roll s.takeSource.1 = (.ok roll, next) ∧
        roll.expression = f.canonical ∧ roll.ShownAs shown ∧ (s.answer plain).1.Says 200 shown) ∧
      ∀ other g segment, Formula.parse other = .ok g → g.terms = f.terms →
        Percent.Encodes other.toUTF8.toList segment →
        ∀ encoded : Request, encoded.Shows ("/roll/" ++ String.ofList segment) →
          s.answer encoded = s.answer plain) ∧
    ∀ name, isRollName name = true → ∀ saving saved : Request,
      saving.method = .put → saving.path = "/roll/savedroll/" ++ name →
      saving.expression = .ok text → saved.Shows saving.path →
      (∃ shown, SavedRoll.Shows (name, text) shown ∧ (s.answer saving).1.Says 202 shown) ∧
      (s.answer saving).2.rolls.find? = Function.update s.rolls.find? name (some f) ∧
      ∃ roll next shown, f.roll (s.answer saving).2.takeSource.1 = (.ok roll, next) ∧
        roll.expression = f.canonical ∧ roll.ShownAs shown ∧
        ((s.answer saving).2.answer saved).1.Says 200 shown := by
  have hwell := Formula.WellFormed.of_parse hparse
  constructor
  · intro plain hplain
    obtain ⟨roll, next, hroll⟩ := s.exists_roll f
    have hanswer := answer_of_same_terms (task?_of_canonical hwell hplain) hwell.parse_canonical
      rfl hroll
    refine ⟨⟨roll, next, _, hroll, expression_of_roll hparse hroll, roll.shownAs_toJson, ?_⟩, ?_⟩
    · rw [hanswer]
      exact says_dress (by simp [hplain.1]) _ _
    · intro other g segment hother hterms hencodes encoded hencoded
      have htask := Request.task?_of_encodes hencoded.1 hencodes hencoded.2
        (Formula.ne_empty_of_parse hother)
      rw [hanswer, answer_of_same_terms htask hother hterms hroll,
        dress_of_method (hencoded.1.trans hplain.1.symm)]
  · intro name hname saving saved hmethod hpath hexpression hsaved
    obtain ⟨rolls, hfind, hresolve, hsaveRoll⟩ :=
      saveRoll_of_parse (s := s) hexpression hname hparse
    have hanswer := s.answer_of_saving hmethod hpath hname
    rw [hsaveRoll] at hanswer
    obtain ⟨roll, next, hroll⟩ := Server.exists_roll { s with rolls := rolls } f
    rw [hanswer]
    refine ⟨⟨_, SavedRoll.shows_toJson hparse, says_dress (by simp [hmethod]) _ _⟩, hfind, roll,
      next, _, hroll, expression_of_roll hparse hroll, roll.shownAs_toJson, ?_⟩
    have htask := Request.task?_of_isRollName hsaved.1 (hsaved.2.trans hpath) hname
    rw [answer_of_task? htask, taskReply_named hresolve hroll]
    exact says_dress (by simp [hsaved.1]) _ _

/-- A plus sign stays one, and a saved roll may be called like the fixed segment before it. -/
theorem paths_stand_for_themselves_savedroll :
    let s : Server := ⟨.empty, .empty, .ofSeed 7, "localhost", false⟩
    let f : Formula := ⟨"2d06 +7", [⟨.plus, .dice 2 6⟩, ⟨.plus, .constant 7⟩]⟩
    let plain : Request := ⟨.get, "/roll/2d6+7", none, ""⟩
    let encoded : Request :=
      ⟨.get, "/roll/" ++ String.ofList (Percent.encode " 02D6 + 007"), none, ""⟩
    let saving : Request := ⟨.put, "/roll/savedroll/savedroll", some "application/json",
      (Json.object [("expression", .string "2d06 +7")]).compact⟩
    let saved : Request := ⟨.get, "/roll/savedroll/savedroll", none, ""⟩
    Formula.parse "2d06 +7" = .ok f ∧
    (∃ (roll : Roll) (shown : Json), roll.expression = "2d6+7" ∧ roll.ShownAs shown ∧
      (s.answer plain).1.Says 200 shown) ∧
    s.answer encoded = s.answer plain ∧
    (s.answer saving).2.rolls.find? "savedroll" = some f ∧
    ∃ (roll : Roll) (shown : Json), roll.expression = "2d6+7" ∧ roll.ShownAs shown ∧
      ((s.answer saving).2.answer saved).1.Says 200 shown := by
  intro s f plain encoded saving saved
  have hparse : Formula.parse "2d06 +7" = .ok f := by decide +kernel
  have hother : Formula.parse " 02D6 + 007" =
      .ok ⟨"02D6 + 007", [⟨.plus, .dice 2 6⟩, ⟨.plus, .constant 7⟩]⟩ := by
    decide +kernel
  have hcanonical : f.canonical = "2d6+7" := by decide +kernel
  have hpath : plain.path = "/roll/" ++ f.canonical := by
    rw [hcanonical]
    decide +kernel
  have hsaving : saving.path = "/roll/savedroll/" ++ "savedroll" := by decide +kernel
  obtain ⟨hformula, hnames⟩ := paths_stand_for_themselves s hparse
  obtain ⟨⟨roll, _, shown, _, hexpression, hshown, hsays⟩, hsame⟩ := hformula plain ⟨rfl, hpath⟩
  obtain ⟨-, hfind, stored, _, told, -, hstored, htold, hrolled⟩ := hnames "savedroll"
    (by decide +kernel) saving saved rfl hsaving
    (Request.expression_of_parse MediaType.isJson_json (Json.parse_compact_text _ _)) ⟨rfl, rfl⟩
  refine ⟨hparse, ⟨roll, shown, hexpression.trans hcanonical, hshown, hsays⟩, ?_, ?_, stored, told,
    hstored.trans hcanonical, htold, hrolled⟩
  · exact hsame _ _ _ hother rfl (Percent.encodes_encode _) encoded ⟨rfl, rfl⟩
  · rw [hfind, Function.update_self]

end Server

end Tabletop
