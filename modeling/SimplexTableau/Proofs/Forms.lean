import SimplexTableau.Proofs.Entries
import SimplexTableau.Proofs.FormNumbers

/-!
# Well-formed forms

A form is accepted exactly if its sizes lie within the limits, the direction and all relations have
one of their spellings, no row has more coefficients than there are variables, and there is a
variable. The problem then holds what the fields count as. Every other form is refused with the
first thing that is wrong: the sizes come first, then the direction, then the rows in their order,
and the missing variable last.
-/

namespace SimplexTableau

open SimplexTableau.Text

/-- The names of a direction in forms. -/
def Direction.spellings : Direction → List String
  | .max => ["max", "maximize", "maximise"]
  | .min => ["min", "minimize", "minimise"]
  | .other _ => []

/-- The signs of a relation in forms. -/
def Relation.spellings : Relation → List String
  | .le => ["<=", "=<"]
  | .ge => [">=", "=>"]
  | .eq => ["=", "=="]

namespace Form

/-- The fields of a constraint, in which the coefficients are a list unless they are missing. -/
structure RawRow where
  fields : List (String × Json)
  coefficients : List Json
  isList : (fields.lookup "coefficients").getD (.arr []) = .arr coefficients

namespace RawRow

/-- What stands in the relation field. -/
def relationText (row : RawRow) : String :=
  ((row.fields.lookup "relation").getD (.str "<=")).display

def rhs (row : RawRow) : Json :=
  (row.fields.lookup "rhs").getD (.int 0)

/-- The name of a row, which is made of its number if it has none. -/
def name (row : RawRow) (i : ℕ) : String :=
  match row.fields.lookup "id" with
  | some id => if id.isEmpty then s!"c-{i}" else id.display
  | none => s!"c-{i}"

/-- No whole number in a row is too large for a double. -/
structure InRange (row : RawRow) : Prop where
  coefficients : ∀ field ∈ row.coefficients, ¬ TooLarge field
  rhs : ¬ TooLarge row.rhs

/-- A row with at most one coefficient for each variable, and with a known relation. -/
structure Fits (row : RawRow) (n : ℕ) : Prop where
  length : row.coefficients.length ≤ n
  relation : ∃ r : Relation, trimmed row.relationText ∈ r.spellings

/-- The first thing that is wrong with a row. -/
inductive FirstFault (row : RawRow) (n i : ℕ) : FormFault → Prop
  | length (long : n < row.coefficients.length) : FirstFault row n i (.coefficientCount (i + 1))
  | relation (short : row.coefficients.length ≤ n)
      (unknown : ∀ r : Relation, trimmed row.relationText ∉ r.spellings) :
      FirstFault row n i (.relation (i + 1) row.relationText)

/-- A constraint that holds what the fields of a row count as, with zeros for the coefficients that
are missing. -/
structure Describes (row : RawRow) (n i : ℕ) (c : Constraint Float) : Prop where
  name : c.id = row.name i
  coefficients : ∃ xs, List.Forall₂ (fun field x => number field = .ok x) row.coefficients xs ∧
    c.coefficients = xs ++ List.replicate (n - xs.length) 0
  relation : trimmed row.relationText ∈ c.relation.spellings
  rhs : number row.rhs = .ok c.rhs

end RawRow

/-- Any form whose constraints are objects. -/
structure RawForm where
  direction : Json
  objective : List Json
  rows : List RawRow
  limits : FormLimits

namespace RawForm

/-- The problem that is made of a form. -/
def problem (form : RawForm) : Except FormFault (Problem Float) :=
  Form.problem form.direction (.arr form.objective) (.arr (form.rows.map (.obj ·.fields))) form.limits

/-- The number of variables. -/
def width (form : RawForm) : ℕ :=
  form.objective.length

/-- The direction in small letters, without blanks at its ends. -/
def directionWord (form : RawForm) : String :=
  String.ofList ((trim form.direction.display.toList).map Char.toLower)

/-- No whole number in a form is too large for a double. -/
structure InRange (form : RawForm) : Prop where
  objective : ∀ field ∈ form.objective, ¬ TooLarge field
  rows : ∀ row ∈ form.rows, row.InRange

def WidthFits (form : RawForm) : Prop :=
  form.limits.minVars ≤ form.width ∧ form.width ≤ form.limits.maxVars

def HeightFits (form : RawForm) : Prop :=
  form.limits.minConstraints ≤ form.rows.length ∧ form.rows.length ≤ form.limits.maxConstraints

instance (form : RawForm) : Decidable form.WidthFits :=
  inferInstanceAs (Decidable (_ ∧ _))

instance (form : RawForm) : Decidable form.HeightFits :=
  inferInstanceAs (Decidable (_ ∧ _))

def DirectionKnown (form : RawForm) : Prop :=
  ∃ d : Direction, form.directionWord ∈ d.spellings

/-- What is looked at before the rows: the sizes and the direction. -/
structure Opens (form : RawForm) : Prop where
  width : form.WidthFits
  height : form.HeightFits
  direction : form.DirectionKnown

structure WellFormed (form : RawForm) : Prop extends Opens form where
  rows : ∀ row ∈ form.rows, row.Fits form.width
  nonempty : 1 ≤ form.width

/-- The first thing that is wrong with a form. -/
inductive FirstFault (form : RawForm) : FormFault → Prop
  | width (unfit : ¬ form.WidthFits) : FirstFault form
      (.variableCount form.limits.minVars form.limits.maxVars (toString form.width))
  | height (width : form.WidthFits) (unfit : ¬ form.HeightFits) : FirstFault form
      (.constraintCount form.limits.minConstraints form.limits.maxConstraints
        (toString form.rows.length))
  | direction (width : form.WidthFits) (height : form.HeightFits)
      (unknown : ¬ form.DirectionKnown) : FirstFault form (.direction form.direction.display)
  | row {before after : List RawRow} {row : RawRow} {fault : FormFault} (opens : form.Opens)
      (rows : form.rows = before ++ row :: after) (fits : ∀ r ∈ before, r.Fits form.width)
      (first : row.FirstFault form.width before.length fault) : FirstFault form fault
  | empty (opens : form.Opens) (fits : ∀ row ∈ form.rows, row.Fits form.width)
      (none : form.width = 0) : FirstFault form (.shape .noVariables)

/-- A problem that holds what the fields of a form count as. -/
structure Describes (form : RawForm) (p : Problem Float) : Prop where
  direction : form.directionWord ∈ p.direction.spellings
  objective : List.Forall₂ (fun field x => number field = .ok x) form.objective p.objective
  rows : List.Forall₂ (fun row c => row.1.Describes form.width row.2 c)
    form.rows.zipIdx p.constraints

end RawForm

/-- All numbers of a problem are finite. -/
structure AllFinite (p : Problem Float) : Prop where
  objective : ∀ x ∈ p.objective, x.isFinite = true
  coefficients : ∀ c ∈ p.constraints, ∀ x ∈ c.coefficients, x.isFinite = true
  rhs : ∀ c ∈ p.constraints, c.rhs.isFinite = true

section Lists

variable {α β ε : Type} {f : α → Except ε β} {l : List α}

lemma exists_mapM_eq_ok {R : α → β → Prop} (h : ∀ a ∈ l, ∃ b, f a = .ok b ∧ R a b) :
    ∃ bs, l.mapM f = .ok bs ∧ List.Forall₂ R l bs := by
  simp only [mapM_eq_ok_iff]
  induction l with
  | nil => exact ⟨[], .nil, .nil⟩
  | cons a l ih =>
    obtain ⟨⟨b, hb, hR⟩, hl⟩ := List.forall_mem_cons.mp h
    obtain ⟨bs, hbs, hRs⟩ := ih hl
    exact ⟨b :: bs, .cons hb hbs, .cons hR hRs⟩

lemma exists_of_forall₂_right {R : α → β → Prop} {m : List β} {b : β} (h : List.Forall₂ R l m)
    (hb : b ∈ m) : ∃ a ∈ l, R a b := by
  induction h with
  | nil => cases hb
  | cons hR _ ih =>
    rcases List.mem_cons.mp hb with rfl | hb
    · exact ⟨_, List.mem_cons_self, hR⟩
    · obtain ⟨a, ha, hab⟩ := ih hb
      exact ⟨a, List.mem_cons_of_mem _ ha, hab⟩

end Lists

section Names

lemma relation?_eq_some_iff {text : String} {r : Relation} :
    relation? text = some r ↔ text ∈ r.spellings := by
  unfold relation?
  cases r <;> simp only [Relation.spellings, List.lookup, List.mem_cons, List.not_mem_nil, or_false]
  all_goals grind

lemma direction?_eq_some_iff {field : Json} {d : Direction} : direction? field = some d ↔
    String.ofList ((trim field.display.toList).map Char.toLower) ∈ d.spellings := by
  unfold direction?
  dsimp only
  generalize String.ofList ((trim field.display.toList).map Char.toLower) = word
  cases d <;> simp only [Direction.spellings, List.contains_iff_mem, List.mem_cons, List.not_mem_nil,
    or_false]
  all_goals grind

end Names

section Rows

variable {row : RawRow} {n i : ℕ} {fault : FormFault} {c : Constraint Float}

/-- Fields that are not too large all count. -/
lemma exists_numbers {fields : List Json} (h : ∀ field ∈ fields, ¬ TooLarge field) :
    ∃ xs, fields.mapM number = .ok xs := by
  obtain ⟨xs, hxs, -⟩ := exists_mapM_eq_ok (R := CountsAs) fun field hfield =>
    exists_number (h field hfield)
  exact ⟨xs, hxs⟩

/-- What a field counts as is finite. -/
lemma isFinite_of_number {field : Json} {x : Float} (h : number field = .ok x) :
    x.isFinite = true := by
  by_cases hlarge : TooLarge field
  · rw [number_eq_error hlarge] at h
    cases h
  · obtain ⟨y, hy, hcounts⟩ := exists_number hlarge
    rw [hy] at h
    cases h
    exact hcounts.finite

lemma isFinite_of_numbers {fields : List Json} {xs : List Float}
    (h : List.Forall₂ (fun field x => number field = .ok x) fields xs) :
    ∀ x ∈ xs, x.isFinite = true := by
  induction h with
  | nil => simp
  | cons hx _ ih => exact List.forall_mem_cons.mpr ⟨isFinite_of_number hx, ih⟩

namespace RawRow

lemma name_eq (row : RawRow) (i : ℕ) : row.name i =
    let id := (row.fields.lookup "id").getD .null
    if id.isEmpty then s!"c-{i}" else id.display := by
  unfold name
  cases row.fields.lookup "id" <;> rfl

/-- What a row leaves once its coefficients are read. -/
lemma row_eq {xs : List Float} (hxs : row.coefficients.mapM number = .ok xs) :
    Form.row n i (.obj row.fields) =
      if n < xs.length then .error (.coefficientCount (i + 1))
      else
        (relation? (trimmed row.relationText)).elim (.error (.relation (i + 1) row.relationText))
          fun r => (number row.rhs).map fun rhs =>
            ⟨row.name i, xs ++ List.replicate (n - xs.length) 0, r, rhs⟩ := by
  have hlist := row.isList
  have htext : ((row.fields.lookup "relation").getD (.str "<=")).display = row.relationText := rfl
  unfold Form.row
  simp only [Json.field?, hlist, Json.members?, hxs, bind, Except.bind, htext]
  by_cases hlong : n < xs.length
  · rw [if_pos hlong, if_pos hlong]
    rfl
  · rw [if_neg hlong, if_neg hlong, name_eq]
    cases relation? (trimmed row.relationText) with
    | none => rfl
    | some r =>
      have hrhs : (row.fields.lookup "rhs").getD (.int 0) = row.rhs := rfl
      simp only [hrhs]
      cases number row.rhs <;> rfl

lemma FirstFault.row_eq_error (h : row.FirstFault n i fault) (hrange : row.InRange) :
    Form.row n i (.obj row.fields) = .error fault := by
  obtain ⟨xs, hxs⟩ := exists_numbers hrange.coefficients
  have hlength : row.coefficients.length = xs.length := (mapM_eq_ok_iff.mp hxs).length_eq
  rw [row_eq hxs]
  cases h with
  | length long => rw [if_pos (hlength ▸ long)]
  | relation short unknown =>
    have hnone : relation? (trimmed row.relationText) = none := by
      refine Option.eq_none_iff_forall_ne_some.mpr fun r hr => ?_
      exact unknown r (relation?_eq_some_iff.mp hr)
    rw [if_neg (by omega), hnone, Option.elim_none]

lemma Fits.exists_row (h : row.Fits n) (hrange : row.InRange) (i : ℕ) :
    ∃ c, Form.row n i (.obj row.fields) = .ok c ∧ row.Describes n i c := by
  obtain ⟨xs, hxs⟩ := exists_numbers hrange.coefficients
  obtain ⟨rhs, hrhs, -⟩ := exists_number hrange.rhs
  obtain ⟨r, hr⟩ := h.relation
  have hforall := mapM_eq_ok_iff.mp hxs
  have hlength := h.length
  rw [hforall.length_eq] at hlength
  refine ⟨⟨row.name i, xs ++ List.replicate (n - xs.length) 0, r, rhs⟩, ?_,
    rfl, ⟨xs, hforall, rfl⟩, hr, hrhs⟩
  rw [row_eq hxs, if_neg (not_lt.mpr hlength), relation?_eq_some_iff.mpr hr, hrhs]
  rfl

lemma exists_firstFault (h : ¬ row.Fits n) (i : ℕ) : ∃ fault, row.FirstFault n i fault := by
  rcases lt_or_ge n row.coefficients.length with hlong | hshort
  · exact ⟨_, .length hlong⟩
  · exact ⟨_, .relation hshort fun r hr => h ⟨hshort, r, hr⟩⟩

lemma Describes.length (h : row.Describes n i c) (hfits : row.Fits n) : c.coefficients.length = n := by
  obtain ⟨xs, hxs, hc⟩ := h.coefficients
  have hlength := hfits.length
  rw [hxs.length_eq] at hlength
  rw [hc, List.length_append, List.length_replicate]
  omega

lemma Describes.isFinite (h : row.Describes n i c) :
    (∀ x ∈ c.coefficients, x.isFinite = true) ∧ c.rhs.isFinite = true := by
  obtain ⟨xs, hxs, hc⟩ := h.coefficients
  refine ⟨fun x hx => ?_, isFinite_of_number h.rhs⟩
  rw [hc, List.mem_append] at hx
  rcases hx with hx | hx
  · exact isFinite_of_numbers hxs x hx
  · have hblank : number .null = .ok 0 := rfl
    rw [List.eq_of_mem_replicate hx]
    exact isFinite_of_number hblank

end RawRow

end Rows

namespace RawForm

section Problems

variable {form : RawForm} {fault : FormFault} {p : Problem Float}

/-- The constraints that are made of the rows. -/
def constraints (form : RawForm) : Except FormFault (List (Constraint Float)) :=
  form.rows.zipIdx.mapM fun row => Form.row form.width row.2 (.obj row.1.fields)

lemma constraints_eq_error {before after : List RawRow} {row : RawRow}
    (hrange : form.InRange) (hrows : form.rows = before ++ row :: after)
    (hfits : ∀ r ∈ before, r.Fits form.width)
    (hfirst : row.FirstFault form.width before.length fault) :
    form.constraints = .error fault := by
  have hmem := hrange.rows
  rw [hrows] at hmem
  rw [constraints, hrows, List.zipIdx_append, List.zipIdx_cons, Nat.zero_add]
  refine mapM_eq_error (fun b hb => ?_) (hfirst.row_eq_error (hmem row (by simp)))
  have hb' : b.1 ∈ before := List.fst_mem_of_mem_zipIdx hb
  obtain ⟨c, hc, -⟩ := (hfits b.1 hb').exists_row (hmem b.1 (by simp [hb'])) b.2
  exact ⟨c, hc⟩

lemma exists_constraints (hrange : form.InRange) (hfits : ∀ row ∈ form.rows, row.Fits form.width) :
    ∃ cs, form.constraints = .ok cs ∧ List.Forall₂
      (fun row c => row.1.Describes form.width row.2 c) form.rows.zipIdx cs := by
  refine exists_mapM_eq_ok fun row hrow => ?_
  have hmem : row.1 ∈ form.rows := List.fst_mem_of_mem_zipIdx hrow
  exact (hfits row.1 hmem).exists_row (hrange.rows row.1 hmem) row.2

lemma checkSize_eq (form : RawForm) :
    checkSize form.limits (.int form.width) (.int form.rows.length) =
      if form.WidthFits then
        if form.HeightFits then .ok ()
        else .error (.constraintCount form.limits.minConstraints form.limits.maxConstraints
          (toString form.rows.length))
      else .error (.variableCount form.limits.minVars form.limits.maxVars (toString form.width)) := by
  have hdisplay (k : ℕ) : (Json.int k).display = toString k := rfl
  have hwidth : within? form.limits.minVars form.limits.maxVars (.int form.width) =
      some (decide form.WidthFits) := rfl
  have hheight : within? form.limits.minConstraints form.limits.maxConstraints
      (.int form.rows.length) = some (decide form.HeightFits) := rfl
  unfold checkSize
  simp only [hwidth, hheight, hdisplay, Bool.not_eq_true', decide_eq_false_iff_not]
  split_ifs <;> rfl

lemma problem_eq {xs : List Float} (hxs : form.objective.mapM number = .ok xs) : form.problem =
    if form.WidthFits then
      if form.HeightFits then
        (direction? form.direction).elim (.error (.direction form.direction.display)) fun d =>
          form.constraints.bind fun cs => checkShape ⟨d, xs, cs⟩
      else .error (.constraintCount form.limits.minConstraints form.limits.maxConstraints
        (toString form.rows.length))
    else .error (.variableCount form.limits.minVars form.limits.maxVars (toString form.width)) := by
  have hlength : form.objective.length = form.width := rfl
  have hconstraints : (form.rows.zipIdx.mapM fun row =>
      Form.row form.width row.2 (.obj row.1.fields)) = form.constraints := rfl
  unfold problem Form.problem
  simp only [Json.members?, List.length_map, hlength, checkSize_eq, bind, Except.bind,
    List.zipIdx_map, List.mapM_map, Function.comp_def, Prod.map, id_eq, hconstraints, hxs]
  split_ifs
  · cases direction? form.direction <;> rfl
  · rfl
  · rfl

lemma Opens.problem_eq {d : Direction} {xs : List Float} (h : form.Opens)
    (hd : form.directionWord ∈ d.spellings) (hxs : form.objective.mapM number = .ok xs) :
    form.problem = form.constraints.bind fun cs => checkShape ⟨d, xs, cs⟩ := by
  rw [RawForm.problem_eq hxs, if_pos h.width, if_pos h.height, direction?_eq_some_iff.mpr hd,
    Option.elim_some]

lemma FirstFault.problem_eq_error (h : form.FirstFault fault) (hrange : form.InRange) :
    form.problem = .error fault := by
  obtain ⟨xs, hxs⟩ := exists_numbers hrange.objective
  cases h with
  | width unfit => rw [RawForm.problem_eq hxs, if_neg unfit]
  | height width unfit => rw [RawForm.problem_eq hxs, if_pos width, if_neg unfit]
  | direction width height unknown =>
    have hnone : direction? form.direction = none := by
      refine Option.eq_none_iff_forall_ne_some.mpr fun d hd => ?_
      exact unknown ⟨d, direction?_eq_some_iff.mp hd⟩
    rw [RawForm.problem_eq hxs, if_pos width, if_pos height, hnone, Option.elim_none]
  | row opens rows fits first =>
    obtain ⟨d, hd⟩ := opens.direction
    rw [opens.problem_eq hd hxs, constraints_eq_error hrange rows fits first]
    rfl
  | empty opens fits empty =>
    obtain ⟨d, hd⟩ := opens.direction
    obtain ⟨cs, hcs, -⟩ := exists_constraints hrange fits
    have hempty : xs.length = 0 := (mapM_eq_ok_iff.mp hxs).length_eq.symm.trans empty
    rw [opens.problem_eq hd hxs, hcs]
    simp [Except.bind, checkShape, Problem.shapeFault?, Problem.numVars, hempty]

lemma Describes.valid (h : form.Describes p) (hform : form.WellFormed) : p.Valid := by
  have hwidth : p.numVars = form.width := h.objective.length_eq.symm
  refine ⟨?_, ?_, fun c hc => ?_⟩
  · have hdirection := h.direction
    cases hd : p.direction with
    | max => exact .inl rfl
    | min => exact .inr rfl
    | other name =>
      rw [hd] at hdirection
      cases hdirection
  · have hnonempty := hform.nonempty
    exact List.ne_nil_of_length_pos (by rw [← Problem.numVars, hwidth]; exact hnonempty)
  · obtain ⟨row, hrow, hdescribes⟩ := exists_of_forall₂_right h.rows hc
    rw [hwidth]
    exact hdescribes.length (hform.rows row.1 (List.fst_mem_of_mem_zipIdx hrow))

lemma Describes.allFinite (h : form.Describes p) : AllFinite p := by
  have hrow : ∀ c ∈ p.constraints,
      (∀ x ∈ c.coefficients, x.isFinite = true) ∧ c.rhs.isFinite = true := by
    intro c hc
    obtain ⟨row, -, hdescribes⟩ := exists_of_forall₂_right h.rows hc
    exact hdescribes.isFinite
  exact ⟨isFinite_of_numbers h.objective, fun c hc => (hrow c hc).1, fun c hc => (hrow c hc).2⟩

lemma WellFormed.exists_problem (h : form.WellFormed) (hrange : form.InRange) :
    ∃ p, form.problem = .ok p ∧ form.Describes p := by
  obtain ⟨xs, hxs⟩ := exists_numbers hrange.objective
  obtain ⟨cs, hcs, hdescribes⟩ := exists_constraints hrange h.rows
  obtain ⟨d, hd⟩ := h.direction
  have hp : form.Describes ⟨d, xs, cs⟩ := ⟨hd, mapM_eq_ok_iff.mp hxs, hdescribes⟩
  have hvalid := hp.valid h
  have hshape : Problem.shapeFault? ⟨d, xs, cs⟩ = none :=
    (Problem.shapeFault?_eq_none_iff _).mpr ⟨hvalid.objective, hvalid.coefficients⟩
  refine ⟨_, ?_, hp⟩
  rw [h.toOpens.problem_eq hd hxs, hcs]
  simp only [Except.bind, checkShape, hshape]

lemma exists_firstFault (h : ¬ form.WellFormed) : ∃ fault, form.FirstFault fault := by
  by_cases hwidth : form.WidthFits
  swap
  · exact ⟨_, .width hwidth⟩
  by_cases hheight : form.HeightFits
  swap
  · exact ⟨_, .height hwidth hheight⟩
  by_cases hdirection : form.DirectionKnown
  swap
  · exact ⟨_, .direction hwidth hheight hdirection⟩
  have hopens : form.Opens := ⟨hwidth, hheight, hdirection⟩
  by_cases hrows : ∀ row ∈ form.rows, row.Fits form.width
  · exact ⟨_, .empty hopens hrows (by_contra fun hne => h ⟨hopens, hrows, Nat.pos_of_ne_zero hne⟩)⟩
  · obtain ⟨before, row, after, hsplit, hbefore, hrow⟩ := exists_first hrows
    obtain ⟨fault, hfault⟩ := RawRow.exists_firstFault hrow before.length
    exact ⟨fault, .row hopens hsplit hbefore hfault⟩

end Problems

end RawForm

/-- A form is accepted exactly if it is well-formed. The problem then holds what the fields count
as, all of its numbers are finite, and its parts fit together. A form is refused with a fault exactly
if this is the first thing that is wrong with it. -/
theorem problem_accepts (form : RawForm) (hrange : form.InRange) :
    ((∃ p, form.problem = .ok p) ↔ form.WellFormed) ∧
      (∀ p, form.problem = .ok p →
        form.Describes p ∧ AllFinite p ∧ p.Valid ∧ p.shapeFault? = none) ∧
      ∀ fault, form.problem = .error fault ↔ form.FirstFault fault := by
  by_cases hform : form.WellFormed
  · obtain ⟨p, hp, hdescribes⟩ := hform.exists_problem hrange
    have hvalid := hdescribes.valid hform
    have hshape := p.shapeFault?_eq_none_iff.mpr ⟨hvalid.objective, hvalid.coefficients⟩
    refine ⟨iff_of_true ⟨p, hp⟩ hform, fun p' hp' => ?_, fun fault => iff_of_false ?_ ?_⟩
    · obtain rfl : p = p' := Except.ok.inj (hp.symm.trans hp')
      exact ⟨hdescribes, hdescribes.allFinite, hvalid, hshape⟩
    · rw [hp]
      exact nofun
    · intro hfault
      rw [hfault.problem_eq_error hrange] at hp
      cases hp
  · obtain ⟨first, hfirst⟩ := RawForm.exists_firstFault hform
    have herror := hfirst.problem_eq_error hrange
    refine ⟨iff_of_false ?_ hform, fun p hp => ?_, fun fault => ⟨fun hfault => ?_, fun hfault =>
      hfault.problem_eq_error hrange⟩⟩
    · rintro ⟨p, hp⟩
      rw [herror] at hp
      cases hp
    · rw [herror] at hp
      cases hp
    · obtain rfl : first = fault := Except.error.inj (herror.symm.trans hfault)
      exact hfirst

/-- Two variables and two constraints: a text that is no number, a coefficient and a name that are
missing, and a right-hand side that is blank. -/
def twoRows : RawForm where
  direction := .str " Maximize"
  objective := [.str "3", .str "five"]
  rows := [
    ⟨[("id", .str "row-a"), ("coefficients", .arr [.str "1"]), ("rhs", .str "4")],
      [.str "1"], rfl⟩,
    ⟨[("coefficients", .arr [.int 3, .float 2]), ("relation", .str "== "), ("rhs", .str "")],
      [.int 3, .float 2], rfl⟩]
  limits := {}

/-- The form with two rows is accepted, and refused if only one variable is allowed. -/
theorem problem_accepts_twoRows :
    (∃ p, twoRows.problem = .ok p ∧ twoRows.Describes p ∧ AllFinite p ∧ p.Valid) ∧
      { twoRows with limits.maxVars := 1 }.problem = .error (.variableCount 1 1 "2") := by
  have hint (n : ℤ) (h : (Decimal.ofInt n).isFinite = true) : ¬ TooLarge (.int n) := by
    rintro ⟨hbeyond⟩
    exact hbeyond.not_gt ((Decimal.isNearest_ofInt n).isFinite_iff.mp h)
  have hrange (limits : FormLimits) : RawForm.InRange { twoRows with limits } := by
    refine ⟨List.forall_mem_cons.mpr ⟨nofun, List.forall_mem_singleton.mpr nofun⟩,
      List.forall_mem_cons.mpr ⟨?_, List.forall_mem_singleton.mpr ?_⟩⟩
    · exact ⟨List.forall_mem_singleton.mpr nofun, nofun⟩
    · exact ⟨List.forall_mem_cons.mpr ⟨hint 3 (by decide +kernel), List.forall_mem_singleton.mpr nofun⟩, nofun⟩
  have hwell : twoRows.WellFormed := by
    refine ⟨⟨by decide, by decide, .max, by decide⟩,
      List.forall_mem_cons.mpr ⟨?_, List.forall_mem_singleton.mpr ?_⟩, by decide⟩
    · exact ⟨by decide, .le, by decide⟩
    · exact ⟨by decide, .eq, by decide⟩
  obtain ⟨haccepts, hresult, -⟩ := problem_accepts twoRows (hrange _)
  obtain ⟨p, hp⟩ := haccepts.mpr hwell
  obtain ⟨hdescribes, hfinite, hvalid, -⟩ := hresult p hp
  refine ⟨⟨p, hp, hdescribes, hfinite, hvalid⟩, ?_⟩
  exact ((problem_accepts _ (hrange _)).2.2 _).mpr (.width (by decide))

end Form

end SimplexTableau
