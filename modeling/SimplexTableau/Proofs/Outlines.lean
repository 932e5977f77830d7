import SimplexTableau.Proofs.Squeezing

/-!
# The outline of a specification

A specification is an objective, a phrase, the constraints and whatever a second phrase introduces.
The phrases may be written in any letter case and with any blanks. They all start with `s` and have
no other `s` in them, so none starts in one part of the outline and ends in the next.
-/

namespace SimplexTableau.Specification

open SimplexTableau.Text

section Phrases

variable {ps x rest : List Char} {c d : Char} {before : Option Char} {text : List Char}

lemma afterPhrase?_eq_some (h : afterPhrase? ps x = some text) :
    afterPhrase? ps (x ++ rest) = some (text ++ rest) := by
  induction ps generalizing x with
  | nil =>
    obtain rfl := Option.some.inj h
    rfl
  | cons p ps ih =>
    cases x with
    | nil => cases h
    | cons c x =>
      simp only [List.cons_append, afterPhrase?] at h ⊢
      split_ifs at h ⊢
      exact ih h

lemma firstPhrase?_cons_some {phrase : String} (phrases : List String)
    (h : afterPhrase? phrase.toList text = some rest) :
    firstPhrase? (phrase :: phrases) text = some (phrase, rest) := by
  rw [firstPhrase?, List.findSome?_cons, h]
  rfl

lemma firstPhrase?_cons_none {phrase : String} (phrases : List String)
    (h : afterPhrase? phrase.toList text = none) :
    firstPhrase? (phrase :: phrases) text = firstPhrase? phrases text := by
  rw [firstPhrase?, List.findSome?_cons, h]
  rfl

/-- No phrase that introduces constraints goes over to what follows. -/
def Stops (rest : List Char) : Prop :=
  ∀ phrase ∈ introductions, ∀ x, x ≠ [] → afterPhrase? phrase.toList x = none →
    afterPhrase? phrase.toList (x ++ rest) = none

lemma afterPhrase?_over (hrest : ∀ v, v <:+ ps.tail → v ≠ [] → afterPhrase? v rest = none)
    (hx : x ≠ []) (h : afterPhrase? ps x = none) : afterPhrase? ps (x ++ rest) = none := by
  induction ps generalizing x with
  | nil => cases h
  | cons p ps ih =>
    obtain ⟨c, x, rfl⟩ := List.exists_cons_of_ne_nil hx
    simp only [List.cons_append, afterPhrase?] at h ⊢
    split_ifs at h ⊢
    · cases x with
      | nil =>
        cases ps with
        | nil => cases h
        | cons q ps => exact hrest _ List.suffix_rfl (List.cons_ne_nil _ _)
      | cons d x =>
        refine ih (fun v hv => hrest v (hv.trans ?_)) (List.cons_ne_nil _ _) h
        exact List.tail_suffix ps
    · rfl

/-- It suffices to look at what is left of a phrase behind its first character. -/
lemma stops_of_tails (h : ∀ phrase ∈ introductions, ∀ v ∈ phrase.toList.tail.tails, v ≠ [] →
    afterPhrase? v rest = none) : Stops rest :=
  fun phrase hphrase _ hx hnone => afterPhrase?_over
    (fun v hv => h phrase hphrase v (List.mem_tails _ _ |>.mpr hv)) hx hnone

lemma stops_nil : Stops [] :=
  fun _ _ _ _ h => by rwa [List.append_nil]

/-- The characters of the phrases that are not their first ones. -/
def innerLetters : List Char :=
  ['u', 'b', 'j', 'e', 'c', 't', ' ', 'o', 'h', 'a', '.']

lemma stops_cons (h : ∀ p ∈ innerLetters, sameLetter p c = false) : Stops (c :: rest) := by
  simp only [innerLetters, List.forall_mem_cons, List.not_mem_nil, false_imp_iff, implies_true,
    and_true] at h
  apply stops_of_tails
  simp [-List.mem_tails, introductions, List.tails, afterPhrase?, h]

/-- In the phrases, a `t` follows each space and each `a`. -/
lemma stops_pair (hc : c = ' ' ∨ c.toLower = 'a') (hd : sameLetter 't' d = false) :
    Stops (c :: d :: rest) := by
  have hd : d.toLower ≠ 't' := by simpa [sameLetter] using hd
  apply stops_of_tails
  obtain rfl | hc := hc
  · simp [-List.mem_tails, introductions, List.tails, afterPhrase?, hd, sameLetter]
  · simp [-List.mem_tails, introductions, List.tails, afterPhrase?, hd, sameLetter, hc]

lemma stops_space : Stops [' '] := by
  apply stops_of_tails
  simp [-List.mem_tails, introductions, List.tails, afterPhrase?, sameLetter]

lemma stops_edge (h : IsEdge rest) : Stops rest := by
  obtain rfl | rfl := h
  · exact stops_nil
  · exact stops_space

/-- The first letter of a phrase is none of the others. -/
lemma sameLetter_of_first (h : sameLetter 's' c = true) :
    ∀ p ∈ innerLetters, sameLetter p c = false := by
  have hlower : c.toLower = 's' ∨ c.toLower = 'ſ' := by
    simp only [sameLetter, Bool.or_eq_true, decide_eq_true_eq, Bool.and_eq_true, Char.reduceEq,
      false_and, or_false, true_and] at h
    obtain h | h := h
    · exact .inl h
    · right
      rw [toLower_eq_self (.inr (by omega)), ← Char.ofNat_toNat c, h]
  obtain h | h := hlower <;> simp [innerLetters, sameLetter, h]

lemma stops_first (h : sameLetter 's' c = true) {lead : List Char} (hlead : IsEdge lead) :
    Stops (lead ++ c :: rest) := by
  have hinner := sameLetter_of_first h
  obtain rfl | rfl := hlead
  · exact stops_cons hinner
  · exact stops_pair (.inl rfl) (hinner 't' (by decide))

lemma Stops.firstPhrase? (h : Stops rest) (hx : x ≠ []) :
    Text.firstPhrase? introductions (x ++ rest) =
      (Text.firstPhrase? introductions x).map fun (phrase, after) => (phrase, after ++ rest) := by
  have hall : ∀ phrases : List String, (∀ phrase ∈ phrases, phrase ∈ introductions) →
      Text.firstPhrase? phrases (x ++ rest) =
        (Text.firstPhrase? phrases x).map fun (phrase, after) => (phrase, after ++ rest) := by
    intro phrases hphrases
    induction phrases with
    | nil => rfl
    | cons phrase phrases ih =>
      obtain ⟨hphrase, hphrases⟩ := List.forall_mem_cons.mp hphrases
      cases hafter : afterPhrase? phrase.toList x with
      | none =>
        rw [firstPhrase?_cons_none _ hafter, ← ih hphrases,
          firstPhrase?_cons_none _ (h phrase hphrase x hx hafter)]
      | some after =>
        rw [firstPhrase?_cons_some _ hafter, firstPhrase?_cons_some _ (afterPhrase?_eq_some hafter)]
        rfl
  exact hall introductions fun _ h => h

lemma Stops.introductionWidth (h : Stops rest) (hx : x ≠ []) :
    Specification.introductionWidth before (x ++ rest) =
      Specification.introductionWidth before x := by
  unfold Specification.introductionWidth
  have hfirst := h.firstPhrase? hx
  rw [introductions] at hfirst
  rw [hfirst]
  cases Text.firstPhrase? ["subject to", "such that", "s.t."] x <;> rfl

lemma introductionWidth_le (before : Option Char) (cs : List Char) :
    introductionWidth before cs ≤ cs.length := by
  have hlength : ∀ {ps x after : List Char}, afterPhrase? ps x = some after →
      ps.length ≤ x.length := by
    intro ps
    induction ps with
    | nil => simp
    | cons p ps ih =>
      rintro (_ | ⟨c, x⟩) after h
      · cases h
      · rw [afterPhrase?] at h
        split_ifs at h
        simpa using ih h
  unfold introductionWidth
  split
  · next phrase after hfirst =>
    obtain ⟨found, -, hfound⟩ := List.exists_of_findSome?_eq_some hfirst
    obtain ⟨_, hafter, heq⟩ := Option.map_eq_some_iff.mp hfound
    obtain ⟨rfl, -⟩ := Prod.mk.inj heq
    have hle := hlength hafter
    rwa [String.length_toList] at hle
  · exact Nat.zero_le _

end Phrases

section Silence

variable {a b : List Char} {c : Char} {before : Option Char} {rest : List Char}

/-- No phrase in a text introduces constraints, wherever the text stands. -/
def Silent (cs : List Char) : Prop :=
  ∀ blank before, Inert introductionWidth before (squeeze blank cs) []

lemma inert_of_stops (h : Inert introductionWidth before a []) (hrest : Stops rest) :
    Inert introductionWidth before a rest := by
  rw [inert_introductionWidth_iff] at h ⊢
  intro x hx hne
  have hnone := h x hx hne
  rw [List.append_nil] at hnone
  rw [hrest.firstPhrase? hne, hnone]
  rfl

lemma inert_edge (h : IsEdge a) : Inert introductionWidth before a rest := by
  obtain rfl | rfl := h
  · trivial
  · exact ⟨introductionWidth_of_ne (by decide), trivial⟩

lemma silent_iff {text : String} : Silent text.toList ↔ Unintroduced text := by
  rw [unintroduced_iff]
  constructor
  · intro h before
    obtain ⟨trail, htrail, hsqueeze⟩ := exists_squeeze_true text.toList
    have hinert := h true before
    rw [hsqueeze, inert_append, List.append_nil, inert_introductionWidth_iff] at hinert
    refine inert_introductionWidth_iff.mpr fun x hx hne => ?_
    have hnone := hinert.1 x hx hne
    rw [(stops_edge htrail).firstPhrase? hne, Option.map_eq_none_iff] at hnone
    rwa [List.append_nil]
  · intro h blank before
    obtain ⟨lead, trail, hlead, htrail, hsqueeze⟩ := exists_squeeze blank text.toList
    rw [hsqueeze, inert_append, inert_append, List.append_nil, List.append_nil]
    exact ⟨inert_edge hlead, inert_of_stops (h _) (stops_edge htrail), inert_edge htrail⟩

lemma Silent.append (ha : Silent a) (hb : Silent b)
    (h : a = [] ∨ ∀ blank, Stops (squeeze blank b)) :
    Silent (a ++ b) := by
  obtain rfl | h := h
  · exact hb
  · intro blank before
    rw [squeeze_append, inert_append, List.append_nil]
    exact ⟨inert_of_stops (ha _ _) (h _), hb _ _⟩

lemma Silent.prepend (h : ∀ c ∈ a, sameLetter 's' c = false) (hb : Silent b) :
    Silent (a ++ b) := by
  intro blank before
  rw [squeeze_append, inert_append, List.append_nil]
  refine ⟨inert_of_forall fun c hc _ _ => introductionWidth_of_ne ?_, hb _ _⟩
  obtain rfl | hc := mem_of_mem_squeeze hc
  · decide
  · exact h c hc

end Silence

section Outlines

variable {objective phrase constraints tail : List Char} {before : Option Char}

/-- A phrase that introduces constraints, in any letter case and with any blanks. -/
def IsIntroduction (text : List Char) : Prop :=
  ∃ phrase ∈ introductions,
    List.Forall₂ (fun p c => sameLetter p c = true) phrase.toList (collapse text)

lemma afterPhrase?_of_forall₂ {ps cs : List Char} (rest : List Char)
    (h : List.Forall₂ (fun p c => sameLetter p c = true) ps cs) :
    afterPhrase? ps (cs ++ rest) = some rest := by
  induction h with
  | nil => rfl
  | cons hc _ ih => simp [afterPhrase?, hc, ih]

/-- No two of the phrases start alike. -/
lemma firstPhrase?_of_forall₂ {phrase : String} {cs : List Char} (rest : List Char)
    (hphrase : phrase ∈ introductions)
    (h : List.Forall₂ (fun p c => sameLetter p c = true) phrase.toList cs) :
    firstPhrase? introductions (cs ++ rest) = some (phrase, rest) := by
  have hafter := afterPhrase?_of_forall₂ rest h
  simp only [introductions, List.mem_cons, List.not_mem_nil, or_false] at hphrase
  obtain rfl | rfl | rfl := hphrase
  · exact firstPhrase?_cons_some _ hafter
  · have hsubject : afterPhrase? "subject to".toList (cs ++ rest) = none := by
      obtain _ | ⟨-, _ | ⟨-, _ | ⟨hc, -⟩⟩⟩ := h
      have hlower : ∀ {c : Char}, sameLetter 'c' c = true → c.toLower = 'c' := by simp [sameLetter]
      simp [afterPhrase?, sameLetter, hlower hc]
    exact (firstPhrase?_cons_none _ hsubject).trans (firstPhrase?_cons_some _ hafter)
  · have hpoint : ∀ {c : Char}, sameLetter '.' c = true → c.toLower = '.' := by simp [sameLetter]
    obtain ⟨hsubject, hsuch⟩ : afterPhrase? "subject to".toList (cs ++ rest) = none ∧
        afterPhrase? "such that".toList (cs ++ rest) = none := by
      obtain _ | ⟨-, _ | ⟨hc, -⟩⟩ := h
      simp [afterPhrase?, sameLetter, hpoint hc]
    exact (firstPhrase?_cons_none _ hsubject).trans
      ((firstPhrase?_cons_none _ hsuch).trans (firstPhrase?_cons_some _ hafter))

lemma IsIntroduction.width (h : IsIntroduction phrase) (rest : List Char) :
    introductionWidth before (collapse phrase ++ rest) = (collapse phrase).length := by
  obtain ⟨text, htext, hletters⟩ := h
  have hfirst := firstPhrase?_of_forall₂ rest htext hletters
  rw [introductions] at hfirst
  rw [introductionWidth, hfirst, ← hletters.length_eq]
  exact String.length_toList.symm

lemma IsIntroduction.eq_cons (h : IsIntroduction phrase) :
    ∃ c cs, collapse phrase = c :: cs ∧ sameLetter 's' c = true := by
  obtain ⟨text, htext, hletters⟩ := h
  obtain ⟨ps, hps⟩ := phrase_eq_cons htext
  rw [hps, List.forall₂_cons_left_iff] at hletters
  obtain ⟨c, cs, hc, -, hcons⟩ := hletters
  exact ⟨c, cs, hcons, hc⟩

lemma cut_introduction {text : List Char} (rest : List Char)
    (htext : Inert introductionWidth before text []) (h : IsIntroduction phrase) (blank : Bool) :
    ∃ lead trail last, IsEdge lead ∧ IsEdge trail ∧
      cut introductionWidth before 0 (text ++ (squeeze blank phrase ++ rest)) =
        (text ++ lead) :: cut introductionWidth last 0 (trail ++ rest) := by
  obtain ⟨lead, trail, hlead, htrail, hsqueeze⟩ := exists_squeeze blank phrase
  obtain ⟨c, cs, hcons, hc⟩ := h.eq_cons
  have hstops : Stops (squeeze blank phrase ++ rest) := by
    rw [hsqueeze, hcons, List.append_assoc]
    exact stops_first hc hlead
  have hinert : Inert introductionWidth before (text ++ lead)
      (collapse phrase ++ (trail ++ rest)) := by
    refine inert_append.mpr ⟨?_, inert_edge hlead⟩
    have := inert_of_stops htext hstops
    rwa [hsqueeze, List.append_assoc, List.append_assoc] at this
  have hcut := cut_separator hinert (by rw [hcons]; exact List.cons_ne_nil _ _) (h.width _)
  have hparts : text ++ (squeeze blank phrase ++ rest) =
      text ++ lead ++ (collapse phrase ++ (trail ++ rest)) := by
    rw [hsqueeze]
    simp only [List.append_assoc]
  exact ⟨lead, trail, _, hlead, htrail, hparts ▸ hcut⟩

/-- What a phrase introduces. -/
def Introduced (text : List Char) : Prop :=
  ∃ phrase rest, IsIntroduction phrase ∧ text = phrase ++ rest

lemma cut_constraints {lead : List Char} (before : Option Char) (hlead : IsEdge lead)
    (hconstraints : Silent constraints) (htail : tail = [] ∨ Introduced tail) (blank : Bool) :
    ∃ trail more, IsEdge trail ∧
      cut introductionWidth before 0 (lead ++ squeeze blank (constraints ++ tail)) =
        (lead ++ squeeze blank constraints ++ trail) :: more := by
  have hinert : Inert introductionWidth before (lead ++ squeeze blank constraints) [] :=
    inert_append.mpr ⟨inert_edge hlead, hconstraints _ _⟩
  rw [squeeze_append, ← List.append_assoc]
  obtain rfl | ⟨phrase, rest, hphrase, rfl⟩ := htail
  · refine ⟨[], [], .inl rfl, ?_⟩
    simpa [squeeze] using cut_whole hinert
  · obtain ⟨trail, behind, last, htrail, -, hcut⟩ :=
      cut_introduction (squeeze _ rest) hinert hphrase (endsBlank blank constraints)
    exact ⟨trail, _, htrail, by rw [squeeze_append, hcut]⟩

/-- The first two pieces of a specification are its objective and its constraints. -/
theorem cut_outline (hobjective : Silent objective) (hphrase : IsIntroduction phrase)
    (hconstraints : Silent constraints) (htail : tail = [] ∨ Introduced tail) :
    ∃ more, (cut introductionWidth none 0
      (collapse (objective ++ (phrase ++ (constraints ++ tail))))).map trim =
        collapse objective :: collapse constraints :: more := by
  obtain ⟨edge, hedge, hcollapse⟩ :=
    exists_squeeze_true (objective ++ (phrase ++ (constraints ++ tail)))
  obtain ⟨lead, trail, last, hlead, htrail, hcut⟩ :=
    cut_introduction (squeeze (endsBlank (endsBlank true objective) phrase) (constraints ++ tail))
      (hobjective true none) hphrase (endsBlank true objective)
  obtain ⟨trail', more, htrail', hnext⟩ := cut_constraints last htrail hconstraints htail
    (endsBlank (endsBlank true objective) phrase)
  rw [hnext, ← squeeze_append, ← squeeze_append, hcollapse] at hcut
  have hpieces : (cut introductionWidth none 0
      (collapse (objective ++ (phrase ++ (constraints ++ tail))) ++ edge)).map trim =
        (cut introductionWidth none 0
          (collapse (objective ++ (phrase ++ (constraints ++ tail))))).map trim :=
    cut_trail introductionWidth_le (fun _ => introductionWidth_of_ne (by decide)) hedge
      fun _ _ hx _ => (stops_edge hedge).introductionWidth hx
  rw [hcut, List.map_cons, List.map_cons, hlead.trim_concat, htrail'.trim_concat,
    htrail.trim_append, trim_squeeze, trim_squeeze] at hpieces
  exact ⟨_, hpieces.symm⟩

/-- The objective and the constraints are read apart, and what a second phrase introduces is not
read. -/
theorem read_outline {spec : String} (hobjective : Silent objective)
    (hphrase : IsIntroduction phrase) (hconstraints : Silent constraints)
    (htail : tail = [] ∨ Introduced tail)
    (hspec : spec.toList = objective ++ (phrase ++ (constraints ++ tail))) :
    trim ((cut introductionWidth none 0 (collapse spec.toList)).headD []) = collapse objective ∧
      trim ((cut introductionWidth none 0 (collapse spec.toList)).getD 1 []) =
        collapse constraints ∧
      read spec = readParts (collapse objective) (collapse constraints) := by
  obtain ⟨more, hpieces⟩ := cut_outline hobjective hphrase hconstraints htail
  rw [← hspec] at hpieces
  have hne : collapse spec.toList ≠ [] := by
    intro hnil
    have hlength := congrArg List.length hpieces
    simp [hnil, cut] at hlength
  rw [read_eq_readParts hne]
  obtain ⟨p, pieces, hcut⟩ := List.exists_cons_of_ne_nil
    (@cut_ne_nil introductionWidth none (collapse spec.toList) 0)
  rw [hcut, List.map_cons, List.cons.injEq] at hpieces
  obtain ⟨q, pieces, rfl, hq, -⟩ := List.map_eq_cons_iff.mp hpieces.2
  rw [hcut, List.headD_cons, List.getD_cons_succ, List.getD_cons_zero, hpieces.1, hq]
  exact ⟨rfl, rfl, rfl⟩

end Outlines

end SimplexTableau.Specification
