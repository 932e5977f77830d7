import SimplexTableau.Proofs.Introductions

/-!
# Runs of blanks

When each run of blanks is squeezed to one space, a text keeps its words and is collapsed but for a
space at either end. Unlike collapsing, squeezing goes through a text from left to right, so that a
text of several parts is squeezed part by part. What follows a text changes nothing in its cuts if
no separator goes over to it.
-/

namespace SimplexTableau.Text

variable {a b cs ds sep : List Char} {c d : Char} {blank : Bool}

/-- Each run of blanks as one space. `blank` says whether a blank stands in front. -/
def squeeze : (blank : Bool) → List Char → List Char
  | _, [] => []
  | blank, c :: cs =>
    if isBlank c then if blank then squeeze true cs else ' ' :: squeeze true cs
    else c :: squeeze false cs

/-- Whether a text ends in a blank, or one stands in front of it if it is empty. -/
def endsBlank (blank : Bool) (cs : List Char) : Bool :=
  cs.foldl (fun _ c => isBlank c) blank

lemma squeeze_cons (h : isBlank c = false) : squeeze blank (c :: cs) = c :: squeeze false cs := by
  simp [squeeze, h]

lemma squeeze_blank (h : isBlank c = true) : squeeze true (c :: cs) = squeeze true cs := by
  simp [squeeze, h]

lemma squeeze_space (h : isBlank c = true) : squeeze false (c :: cs) = ' ' :: squeeze true cs := by
  simp [squeeze, h]

lemma squeeze_append :
    squeeze blank (a ++ b) = squeeze blank a ++ squeeze (endsBlank blank a) b := by
  induction a generalizing blank with
  | nil => rfl
  | cons c a ih =>
    have hends : endsBlank blank (c :: a) = endsBlank (isBlank c) a := rfl
    rw [hends, List.cons_append]
    by_cases hc : isBlank c = true
    · cases blank
      · rw [squeeze_space hc, squeeze_space hc, ih, hc, List.cons_append]
      · rw [squeeze_blank hc, squeeze_blank hc, ih, hc]
    · have hc : isBlank c = false := by simpa using hc
      rw [squeeze_cons hc, squeeze_cons hc, ih, hc, List.cons_append]

lemma squeeze_word (h : ∀ c ∈ a, isBlank c = false) (hne : a ≠ []) :
    squeeze blank (a ++ b) = a ++ squeeze false b := by
  induction a generalizing blank with
  | nil => exact absurd rfl hne
  | cons c a ih =>
    obtain ⟨hc, ha⟩ := List.forall_mem_cons.mp h
    rw [List.cons_append, squeeze_cons hc, List.cons_append, List.cons.injEq]
    refine ⟨rfl, ?_⟩
    cases a with
    | nil => rfl
    | cons d a => exact ih ha (List.cons_ne_nil _ _)

lemma squeeze_true_blanks (h : ∀ c ∈ cs, isBlank c = true) : squeeze true cs = [] := by
  induction cs with
  | nil => rfl
  | cons c cs ih =>
    obtain ⟨hc, hcs⟩ := List.forall_mem_cons.mp h
    rw [squeeze_blank hc, ih hcs]

/-- Nothing or one space. -/
def IsEdge (cs : List Char) : Prop :=
  cs = [] ∨ cs = [' ']

lemma isEdge_squeeze (h : ∀ c ∈ cs, isBlank c = true) : IsEdge (squeeze blank cs) := by
  cases blank with
  | true => exact .inl (squeeze_true_blanks h)
  | false =>
    cases cs with
    | nil => exact .inl rfl
    | cons c cs =>
      obtain ⟨hc, hcs⟩ := List.forall_mem_cons.mp h
      rw [squeeze_space hc, squeeze_true_blanks hcs]
      exact .inr rfl

lemma mem_of_mem_squeeze (h : c ∈ squeeze blank cs) : c = ' ' ∨ c ∈ cs := by
  induction cs generalizing blank with
  | nil => cases h
  | cons d cs ih =>
    by_cases hd : isBlank d = true
    · cases blank
      · rw [squeeze_space hd, List.mem_cons] at h
        obtain h | h := h
        · exact .inl h
        · exact (ih h).imp_right (List.mem_cons_of_mem d)
      · rw [squeeze_blank hd] at h
        exact (ih h).imp_right (List.mem_cons_of_mem d)
    · rw [squeeze_cons (by simpa using hd), List.mem_cons] at h
      obtain rfl | h := h
      · exact .inr List.mem_cons_self
      · exact (ih h).imp_right (List.mem_cons_of_mem d)

lemma isBlank_of_words_eq_nil (h : words cs = []) : ∀ c ∈ cs, isBlank c = true := by
  have hfilter : cs.filter (!isBlank ·) = [] := by rw [← flatten_words, h, List.flatten_nil]
  simpa using hfilter

/-- With a blank in front, a text is squeezed to what it is collapsed to. A space may be left at the
end. -/
lemma exists_squeeze_true (cs : List Char) :
    ∃ trail, IsEdge trail ∧ squeeze true cs = collapse cs ++ trail := by
  suffices (∃ trail, IsEdge trail ∧ squeeze true cs = collapse cs ++ trail) ∧
      ∀ c, isBlank c = false →
        ∃ trail, IsEdge trail ∧ c :: squeeze false cs = collapse (c :: cs) ++ trail from this.1
  induction cs with
  | nil =>
    refine ⟨⟨[], .inl rfl, rfl⟩, fun c hc => ⟨[], .inl rfl, ?_⟩⟩
    rw [collapse, words_singleton hc]
    rfl
  | cons d cs ih =>
    obtain ⟨⟨trail, htrail, hsqueeze⟩, hword⟩ := ih
    by_cases hd : isBlank d = true
    · constructor
      · refine ⟨trail, htrail, ?_⟩
        rw [squeeze_blank hd, hsqueeze, collapse, collapse, words_cons_blank hd]
      · intro c hc
        rw [squeeze_space hd, collapse, words_cons_end hc hd]
        by_cases hwords : words cs = []
        · refine ⟨[' '], .inr rfl, ?_⟩
          rw [squeeze_true_blanks (isBlank_of_words_eq_nil hwords), hwords]
          rfl
        · refine ⟨trail, htrail, ?_⟩
          rw [hsqueeze, List.intercalate_cons_of_ne_nil hwords, ← collapse]
          simp
    · have hd : isBlank d = false := by simpa using hd
      obtain ⟨trail, htrail, hsqueeze⟩ := hword d hd
      rw [squeeze_cons hd, squeeze_cons hd]
      refine ⟨⟨trail, htrail, hsqueeze⟩, fun c hc => ⟨trail, htrail, ?_⟩⟩
      obtain ⟨w, ws, hws⟩ : ∃ w ws, words (d :: cs) = w :: ws := by
        obtain ⟨hw, -⟩ | ⟨w, ws, -, hw, -⟩ := words_cons cs hd <;> exact ⟨_, _, hw⟩
      have hcons : collapse (c :: d :: cs) = c :: collapse (d :: cs) := by
        rw [collapse, collapse, words_cons_cons hc hd hws, hws]
        cases ws with
        | nil => simp
        | cons u ws =>
          rw [List.intercalate_cons_of_ne_nil (List.cons_ne_nil _ _),
            List.intercalate_cons_of_ne_nil (List.cons_ne_nil _ _), List.append_assoc,
            List.cons_append, List.append_assoc]
      rw [hcons, hsqueeze, List.cons_append]

lemma exists_squeeze (blank : Bool) (cs : List Char) : ∃ lead trail, IsEdge lead ∧ IsEdge trail ∧
    squeeze blank cs = lead ++ (collapse cs ++ trail) := by
  obtain ⟨trail, htrail, hsqueeze⟩ := exists_squeeze_true cs
  cases blank with
  | true => exact ⟨[], trail, .inl rfl, htrail, hsqueeze⟩
  | false =>
    cases cs with
    | nil => exact ⟨[], [], .inl rfl, .inl rfl, rfl⟩
    | cons c cs =>
      by_cases hc : isBlank c = true
      · rw [squeeze_blank hc] at hsqueeze
        exact ⟨[' '], trail, .inr rfl, htrail, by rw [squeeze_space hc, hsqueeze]; rfl⟩
      · have hc : isBlank c = false := by simpa using hc
        rw [squeeze_cons hc] at hsqueeze
        exact ⟨[], trail, .inl rfl, htrail, by rw [squeeze_cons hc, hsqueeze]; rfl⟩

section Edges

variable {lead trail : List Char}

lemma IsEdge.trim_append (h : IsEdge lead) : trim (lead ++ cs) = trim cs := by
  obtain rfl | rfl := h
  · rfl
  · exact strip_cons (by decide)

lemma IsEdge.trim_concat (h : IsEdge trail) : trim (cs ++ trail) = trim cs := by
  obtain rfl | rfl := h
  · rw [List.append_nil]
  · exact strip_concat (by decide)

lemma trim_collapse (cs : List Char) : trim (collapse cs) = collapse cs := by
  by_cases h : words cs = []
  · rw [collapse, h]
    rfl
  · exact (Specification.tidy_collapse h).trim_eq

/-- What is squeezed and trimmed is collapsed. -/
theorem trim_squeeze (blank : Bool) (cs : List Char) : trim (squeeze blank cs) = collapse cs := by
  obtain ⟨lead, trail, hlead, htrail, hsqueeze⟩ := exists_squeeze blank cs
  rw [hsqueeze, hlead.trim_append, htrail.trim_concat, trim_collapse]

end Edges

section Joining

variable {width : Option Char → List Char → ℕ} {before : Option Char} {rest : List Char}

/-- Pieces of a text and of another one behind it. The last of the first and the first of the others
become one. -/
def joinPieces : List (List Char) → List (List Char) → List (List Char)
  | [], qs => qs
  | [p], qs => qs.modifyHead (p ++ ·)
  | p :: p' :: ps, qs => p :: joinPieces (p' :: ps) qs

lemma joinPieces_cons {p : List Char} {ps qs : List (List Char)} (h : ps ≠ []) :
    joinPieces (p :: ps) qs = p :: joinPieces ps qs := by
  cases ps with
  | nil => exact absurd rfl h
  | cons p' ps => rfl

lemma joinPieces_modifyHead {ps qs : List (List Char)} (h : ps ≠ []) (hqs : qs ≠ []) :
    joinPieces (ps.modifyHead (c :: ·)) qs = (joinPieces ps qs).modifyHead (c :: ·) := by
  obtain ⟨q, qs, rfl⟩ := List.exists_cons_of_ne_nil hqs
  cases ps with
  | nil => exact absurd rfl h
  | cons p ps => cases ps <;> rfl

/-- The separators of a text are those that it has alone, though `rest` follows. -/
def Steady (width : Option Char → List Char → ℕ) (a rest : List Char) : Prop :=
  ∀ x, x <:+ a → x ≠ [] → ∀ before, width before (x ++ rest) = width before x

/-- A text is cut as it is alone, and the text behind it is cut on. -/
theorem cut_join (hwidth : ∀ before cs, width before cs ≤ cs.length) (h : Steady width a rest) :
    cut width before 0 (a ++ rest) =
      joinPieces (cut width before 0 a) (cut width (lastOr before a) 0 rest) := by
  suffices ∀ skip ≤ a.length, ∀ before, cut width before skip (a ++ rest) =
      joinPieces (cut width before skip a) (cut width (lastOr before a) 0 rest) from
    this 0 (Nat.zero_le _) before
  induction a with
  | nil =>
    intro skip hskip before
    obtain rfl := Nat.le_zero.mp hskip
    obtain ⟨q, qs, hqs⟩ := List.exists_cons_of_ne_nil (@cut_ne_nil width before rest 0)
    simp [lastOr, hqs, cut, joinPieces]
  | cons c a ih =>
    intro skip hskip before
    have ih := ih fun x hx hne => h x (hx.trans (List.suffix_cons _ _)) hne
    have hlast : lastOr before (c :: a) = lastOr (some c) a := rfl
    rw [hlast]
    cases skip with
    | succ k => exact ih k (by simpa using hskip) (some c)
    | zero =>
      have hfirst := h (c :: a) List.suffix_rfl (List.cons_ne_nil _ _) before
      have hlength := hwidth before (c :: a)
      rw [List.cons_append] at hfirst
      cases hw : width before (c :: a) with
      | zero =>
        rw [List.cons_append, cut_cons hw, cut_cons (hfirst.trans hw), ih 0 (Nat.zero_le _),
          joinPieces_modifyHead (cut_ne_nil 0) (cut_ne_nil 0)]
      | succ k =>
        rw [hw, List.length_cons] at hlength
        simp only [List.cons_append, cut, hfirst, hw, ih k (by omega),
          joinPieces_cons (cut_ne_nil k)]

lemma cut_trail (hwidth : ∀ before cs, width before cs ≤ cs.length)
    (hspace : ∀ before, width before [' '] = 0) {trail : List Char} (htrail : IsEdge trail)
    (h : Steady width a trail) :
    (cut width before 0 (a ++ trail)).map trim = (cut width before 0 a).map trim := by
  have hcut : cut width (lastOr before a) 0 trail = [trail] := by
    obtain rfl | rfl := htrail
    · rfl
    · exact cut_whole ⟨hspace _, trivial⟩
  have hjoin : ∀ ps : List (List Char), ps ≠ [] →
      (joinPieces ps [trail]).map trim = ps.map trim := by
    intro ps hps
    induction ps with
    | nil => exact absurd rfl hps
    | cons p ps ih =>
      cases ps with
      | nil => simp [joinPieces, htrail.trim_concat]
      | cons p' ps =>
        rw [joinPieces_cons (List.cons_ne_nil _ _), List.map_cons, ih (List.cons_ne_nil _ _)]
        rfl
  rw [cut_join hwidth h, hcut, hjoin _ (cut_ne_nil 0)]

end Joining

end SimplexTableau.Text
