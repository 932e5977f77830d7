import Mathlib
import SimplexTableau.Proofs.WrittenSpec

/-!
# Collecting coefficients

Adding a term changes the coefficient of its name and no other, and puts the name last if it is
new. So the terms of a sum carry its distinct names by first appearance, each with its values
summed from left to right, and the names of several sums are collected in the same order.
-/

namespace SimplexTableau.Specification

/-- Adds a name to those known before. -/
def noteName (known : List String) (name : String) : List String :=
  if known.contains name then known else known ++ [name]

section Names

variable {known names more : List String} {name : String}

lemma noteName_of_mem (h : name ∈ known) : noteName known name = known :=
  if_pos (List.contains_iff_mem.mpr h)

lemma noteName_of_notMem (h : name ∉ known) : noteName known name = known ++ [name] :=
  if_neg (mt List.contains_iff_mem.mp h)

lemma eraseDups_concat : (names ++ [name]).eraseDups = noteName names.eraseDups name := by
  rw [List.eraseDups_append]
  by_cases h : name ∈ names
  · rw [noteName_of_mem (List.mem_eraseDups.mpr h)]
    simp [List.removeAll, h]
  · rw [noteName_of_notMem (mt List.mem_eraseDups.mp h)]
    simp [List.removeAll, h, List.eraseDups_cons]

lemma foldl_noteName : more.foldl noteName names.eraseDups = (names ++ more).eraseDups := by
  induction more generalizing names with
  | nil => rw [List.append_nil, List.foldl_nil]
  | cons name more ih =>
    rw [List.foldl_cons, ← eraseDups_concat, ih, List.append_assoc, List.singleton_append]

lemma eraseDups_append_eraseDups :
    (names ++ more.eraseDups).eraseDups = (names ++ more).eraseDups := by
  induction more using List.reverseRecOn with
  | nil => rfl
  | append_singleton more name ih =>
    rw [eraseDups_concat, ← List.append_assoc, eraseDups_concat, ← ih]
    by_cases h : name ∈ more
    · rw [noteName_of_mem (List.mem_eraseDups.mpr h), noteName_of_mem (by simp [h])]
    · rw [noteName_of_notMem (mt List.mem_eraseDups.mp h), ← List.append_assoc, eraseDups_concat]

lemma addNames_eq {α : Type} {terms : List (String × α)} :
    addNames known terms = (terms.map (·.1)).foldl noteName known := by
  rw [List.foldl_map]
  rfl

end Names

section Terms

variable {α : Type} [Scalar α] {name other : String} {value : α} {terms : List (String × α)}

lemma map_addTerm : (addTerm name value terms).map (·.1) = noteName (terms.map (·.1)) name := by
  induction terms with
  | nil => rfl
  | cons t terms ih =>
    obtain ⟨n, v⟩ := t
    rw [addTerm]
    by_cases h : n = name
    · rw [if_pos h, noteName_of_mem (by simp [h])]
      rfl
    · rw [if_neg h, List.map_cons, List.map_cons, ih]
      by_cases hmem : name ∈ terms.map (·.1)
      · rw [noteName_of_mem hmem, noteName_of_mem (List.mem_cons_of_mem _ hmem)]
      · rw [noteName_of_notMem hmem, noteName_of_notMem (by simpa [Ne.symm h] using hmem)]
        rfl

lemma coefficientOf_addTerm :
    coefficientOf (addTerm name value terms) other =
      if other = name then coefficientOf terms other + value else coefficientOf terms other := by
  have hbeq : ∀ {n : String}, other ≠ n → (other == n) = false := by simp
  unfold coefficientOf
  induction terms with
  | nil => by_cases h : other = name <;> simp [addTerm, List.lookup, h, hbeq]
  | cons t terms ih =>
    obtain ⟨n, v⟩ := t
    by_cases h : n = name
    · by_cases ho : other = name <;> simp [addTerm, List.lookup, h, ho, hbeq]
    · by_cases ho : other = n
      · simp [addTerm, List.lookup, h, ho]
      · simp only [addTerm, if_neg h, List.lookup, hbeq ho, ih]

end Terms

namespace Written

namespace Sum

variable {e : Sum} {name : String}

/-- The coefficients of a sum, collected term by term. -/
def terms (e : Sum) : List (String × Float) :=
  e.summands.foldl (fun terms s => addTerm s.name.string s.value terms) []

theorem names_terms : e.terms.map (·.1) = e.names.eraseDups := by
  have hfold : ∀ (ss : List Summand) (ts : List (String × Float)),
      (ss.foldl (fun ts s => addTerm s.name.string s.value ts) ts).map (·.1) =
        (ss.map (·.name.string)).foldl noteName (ts.map (·.1)) := by
    intro ss
    induction ss with
    | nil => intro ts; rfl
    | cons s ss ih => intro ts; rw [List.foldl_cons, ih, map_addTerm]; rfl
  exact (hfold _ _).trans (by rw [List.map_nil, ← List.eraseDups_nil, foldl_noteName]; rfl)

theorem coefficientOf_terms : coefficientOf e.terms name = e.coefficient name := by
  have hfold : ∀ (ss : List Summand) (ts : List (String × Float)),
      coefficientOf (ss.foldl (fun ts s => addTerm s.name.string s.value ts) ts) name =
        ((ss.filter (·.name.string = name)).map Summand.value).foldl (· + ·)
          (coefficientOf ts name) := by
    intro ss
    induction ss with
    | nil => intro ts; rfl
    | cons s ss ih =>
      intro ts
      rw [List.foldl_cons, ih, coefficientOf_addTerm]
      by_cases h : s.name.string = name
      · simp [h]
      · simp [h, Ne.symm h]
  exact hfold _ _

lemma addNames_terms {known : List String} :
    addNames known.eraseDups e.terms = (known ++ e.names).eraseDups := by
  rw [addNames_eq, names_terms, foldl_noteName, eraseDups_append_eraseDups]

lemma terms_ne_nil : e.terms ≠ [] := by
  have hnames : e.terms.map (·.1) ≠ [] := by
    rw [names_terms, names, summands, List.map_cons, List.eraseDups_cons]
    exact List.cons_ne_nil _ _
  exact fun h => hnames (by rw [h, List.map_nil])

/-- A sum in a single variable is collected as one term, and only such a sum. -/
lemma terms_eq_singleton (h : ∀ n ∈ e.names, n = e.first.name.string) :
    e.terms = [(e.first.name.string, e.coefficient e.first.name.string)] := by
  have hnames : e.terms.map (·.1) = [e.first.name.string] := by
    rw [names_terms, names, summands, List.map_cons, List.eraseDups_cons,
      List.filter_eq_nil_iff.mpr]
    · rfl
    · intro n hn
      simp [h n (List.mem_cons_of_mem _ hn)]
  obtain ⟨⟨n, v⟩, hterms, hn⟩ := List.map_eq_singleton_iff.mp hnames
  have hv : coefficientOf e.terms e.first.name.string = v := by
    simp [hterms, ← hn, coefficientOf]
  rw [← coefficientOf_terms, hv, hterms, ← hn]

lemma eq_of_terms_eq_singleton {t : String × Float} (h : e.terms = [t]) :
    ∀ n ∈ e.names, n = e.first.name.string := by
  have hmem : ∀ n ∈ e.names, n = t.1 := by
    intro n hn
    rw [← List.mem_eraseDups, ← names_terms, h] at hn
    simpa using hn
  intro n hn
  rw [hmem n hn, hmem e.first.name.string List.mem_cons_self]

end Sum

namespace Clause

variable {c : Clause}

/-- What a clause is read as. -/
def statement (c : Clause) : Statement Float :=
  ⟨c.left.terms, c.sign.relation, c.rhs⟩

theorem isNonNegativity_statement : c.statement.isNonNegativity = c.isNonNegativity := by
  rw [Statement.isNonNegativity, isNonNegativity, Bool.and_assoc _ (List.all _ _)]
  congr 1
  by_cases h : ∀ n ∈ c.left.names, n = c.left.first.name.string
  · have hall : c.left.names.all (· = c.left.first.name.string) = true := by simpa using h
    simp only [statement, Sum.terms_eq_singleton h, hall, Bool.true_and]
  · have hall : c.left.names.all (· = c.left.first.name.string) = false := by simpa using h
    rw [hall, Bool.false_and]
    split
    · next ht => exact absurd (Sum.eq_of_terms_eq_singleton ht) h
    · rfl

end Clause

end Written

end SimplexTableau.Specification
