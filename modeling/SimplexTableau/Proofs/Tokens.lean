import SimplexTableau.Proofs.Separation

/-!
# Gaps and tokens

Between two constraints there is a gap of separators and blanks. The tokens of a text are what
stands between its separators, with runs of blanks collapsed. A gap that holds a separator parts the
tokens in front of it from those behind it. Where blanks are collapsed first, as when a
specification is read, the tokens are the same.
-/

namespace SimplexTableau.Specification

open SimplexTableau.Text

section Tokens

variable {before before' : Option Char} {a gap rest sep text : List Char} {c : Char}

/-- What stands between the separators of a text, with runs of blanks collapsed. -/
def tokensOf (before : Option Char) (text : List Char) : List (List Char) :=
  ((cut separatorWidth before 0 text).map collapse).filter (· ≠ [])

lemma collapse_cons_blank (h : isBlank c = true) : collapse (c :: text) = collapse text := by
  rw [collapse, collapse, words_cons_blank h]

lemma collapse_append_blanks (h : ∀ c ∈ rest, isBlank c = true) :
    collapse (a ++ rest) = collapse a := by
  induction rest generalizing a with
  | nil => rw [List.append_nil]
  | cons c rest ih =>
    obtain ⟨hc, hrest⟩ := List.forall_mem_cons.mp h
    have hnil : collapse rest = [] := ih (a := []) hrest
    have hwords : words rest = [] := by
      by_contra hne
      exact (tidy_collapse hne).ne_nil hnil
    rw [collapse, words_append_blank hc, hwords, List.append_nil, collapse]

@[simp] lemma tokensOf_nil : tokensOf before [] = [] :=
  rfl

lemma cut_blank (h : isBlank c = true) : cut separatorWidth before 0 (c :: text) =
    (cut separatorWidth (some c) 0 text).modifyHead (c :: ·) :=
  cut_cons (separatorWidth_blank h)

lemma cut_isSeparator (h : IsSeparator before sep rest) :
    cut separatorWidth before 0 (sep ++ rest) =
      [] :: cut separatorWidth (lastOr before sep) 0 rest :=
  cut_separator (a := []) trivial h.ne_nil h.width

lemma tokensOf_blank (h : isBlank c = true) :
    tokensOf before (c :: text) = tokensOf (some c) text := by
  obtain ⟨p, ps, hcut⟩ := List.exists_cons_of_ne_nil (@cut_ne_nil separatorWidth (some c) text 0)
  rw [tokensOf, tokensOf, cut_blank h, hcut, List.modifyHead_cons, List.map_cons,
    collapse_cons_blank h, List.map_cons]

lemma tokensOf_isSeparator (h : IsSeparator before sep rest) :
    tokensOf before (sep ++ rest) = tokensOf (lastOr before sep) rest := by
  rw [tokensOf, cut_isSeparator h]
  rfl

lemma separatorWidth_of_fresh (h : Fresh before rest) :
    separatorWidth before rest = separatorWidth none rest := by
  by_cases hwidth : separatorWidth none rest = 0
  · rw [hwidth]
    by_contra hsome
    obtain ⟨sep, more, rfl, hsep⟩ := exists_separator hsome
    have hnone : IsSeparator none sep more := by
      cases hsep with
      | comma => exact .comma _
      | semicolon => exact .semicolon _
      | word hw _ hmore => exact .word hw rfl hmore
    rw [hnone.width, List.length_eq_zero_iff] at hwidth
    exact hsep.ne_nil hwidth
  · obtain ⟨sep, more, rfl, hsep⟩ := exists_separator hwidth
    have hfresh : IsSeparator before sep more := by
      cases hsep with
      | comma => exact .comma _
      | semicolon => exact .semicolon _
      | word hw _ hmore =>
        refine .word hw (h.resolve_right ?_) hmore
        obtain ⟨c, sep, rfl⟩ := List.exists_cons_of_ne_nil (fun h => by simp [h] at hw : sep ≠ [])
        simp [isWord_of_and hw c List.mem_cons_self]
    rw [hfresh.width, hsep.width]

lemma tokensOf_of_fresh (h : Fresh before rest) : tokensOf before rest = tokensOf none rest := by
  cases rest with
  | nil => rfl
  | cons c rest =>
    rw [tokensOf, tokensOf]
    simp only [cut, separatorWidth_of_fresh h]

end Tokens

section Gaps

variable {before : Option Char} {a b gap rest rest' sep text : List Char} {c : Char}

/-- Blanks and separators, with the character in front of them and the text behind them. -/
inductive Gap : (before : Option Char) → (gap rest : List Char) → Prop where
  | nil (before : Option Char) (rest : List Char) : Gap before [] rest
  | blank {before : Option Char} {c : Char} {gap rest : List Char} (hc : isBlank c = true)
      (h : Gap (some c) gap rest) : Gap before (c :: gap) rest
  | separator {before : Option Char} {sep gap rest : List Char}
      (hsep : IsSeparator before sep (gap ++ rest)) (h : Gap (lastOr before sep) gap rest) :
      Gap before (sep ++ gap) rest

/-- There is a separator in a gap. -/
def Parting (gap : List Char) : Prop :=
  ∃ c ∈ gap, isBlank c = false

namespace Gap

lemma congr (h : Gap before gap rest) (hrest : rest.head?.any isWord = rest'.head?.any isWord) :
    Gap before gap rest' := by
  induction h with
  | nil before => exact .nil before _
  | blank hc _ ih => exact .blank hc (ih hrest)
  | @separator before sep gap rest hsep _ ih =>
    refine .separator (hsep.congr rfl ?_) (ih hrest)
    cases gap with
    | nil => exact hrest
    | cons c gap => rfl

lemma fresh_front (h : Gap before gap rest) (hne : gap ≠ []) : Fresh before (gap ++ rest) := by
  cases h with
  | nil => exact absurd rfl hne
  | blank hc => exact .inr (isWord_of_isBlank hc)
  | separator hsep =>
    cases hsep with
    | comma => exact .inr rfl
    | semicolon => exact .inr rfl
    | word _ hbefore => exact .inl hbefore

lemma fresh (h : Gap before gap rest) (hfresh : Fresh before (gap ++ rest)) :
    Fresh (lastOr before gap) rest := by
  induction h with
  | nil => exact hfresh
  | blank hc _ ih => exact ih (.inl (isWord_of_isBlank hc))
  | @separator before sep gap rest hsep _ ih =>
    rw [lastOr, List.foldl_append, ← lastOr, ← lastOr]
    refine ih ?_
    cases hsep with
    | comma => exact .inl rfl
    | semicolon => exact .inl rfl
    | word _ _ hrest => exact .inr hrest

lemma tokensOf_append (h : Gap before gap rest) :
    tokensOf before (gap ++ rest) = tokensOf (lastOr before gap) rest := by
  induction h with
  | nil => rfl
  | blank hc _ ih =>
    rw [List.cons_append, tokensOf_blank hc, ih]
    rfl
  | @separator before sep gap rest hsep _ ih =>
    rw [List.append_assoc, tokensOf_isSeparator hsep, ih, lastOr, lastOr, lastOr, List.foldl_append]

/-- A gap is cut at its first separator, or goes on to the end of the text. -/
lemma exists_cut (h : Gap before gap rest) (hparts : Parting gap ∨ rest = []) :
    ∃ q qs, cut separatorWidth before 0 (gap ++ rest) = q :: qs ∧ (∀ c ∈ q, isBlank c = true) ∧
      (qs.map collapse).filter (· ≠ []) = tokensOf (lastOr before gap) rest := by
  induction h with
  | nil =>
    obtain ⟨c, hc, -⟩ | rfl := hparts
    · cases hc
    · exact ⟨[], [], rfl, by simp, rfl⟩
  | @blank before c gap rest hc h ih =>
    obtain ⟨q, qs, hcut, hq, hqs⟩ := ih (hparts.imp_left (by
      rintro ⟨d, hd, hblank⟩
      obtain rfl | hd := List.mem_cons.mp hd
      · rw [hc] at hblank
        cases hblank
      · exact ⟨d, hd, hblank⟩))
    refine ⟨c :: q, qs, ?_, List.forall_mem_cons.mpr ⟨hc, hq⟩, hqs⟩
    rw [List.cons_append, cut_blank hc, hcut, List.modifyHead_cons]
  | @separator before sep gap rest hsep h _ =>
    refine ⟨[], cut separatorWidth (lastOr before sep) 0 (gap ++ rest), ?_, by simp, ?_⟩
    · rw [List.append_assoc, cut_isSeparator hsep]
    · rw [← tokensOf, h.tokensOf_append, lastOr, lastOr, lastOr, List.foldl_append]

end Gap

/-- A gap between two texts that holds a separator if both are there. -/
structure Divides (a gap b : List Char) : Prop where
  isGap : Gap a.getLast? gap b
  parting : a ≠ [] → b ≠ [] → Parting gap

lemma lastOr_eq_getLast? (h : a ≠ []) : lastOr before a = a.getLast? := by
  induction a generalizing before with
  | nil => exact absurd rfl h
  | cons c a ih =>
    cases a with
    | nil => rfl
    | cons d a =>
      have hlast : lastOr (some c) (d :: a) = (d :: a).getLast? := ih (List.cons_ne_nil _ _)
      rw [List.getLast?_cons_cons, ← hlast]
      rfl

lemma map_joinPieces {ps qs : List (List Char)} {q : List Char} (hne : ps ≠ [])
    (hq : ∀ c ∈ q, isBlank c = true) :
    (joinPieces ps (q :: qs)).map collapse = ps.map collapse ++ qs.map collapse := by
  induction ps with
  | nil => exact absurd rfl hne
  | cons p ps ih =>
    cases ps with
    | nil => simp [joinPieces, collapse_append_blanks hq]
    | cons p' ps =>
      rw [joinPieces_cons (List.cons_ne_nil _ _), List.map_cons, ih (List.cons_ne_nil _ _)]
      rfl

namespace Divides

lemma append_right (h : Divides a gap b) (hne : b ≠ []) : Divides a gap (b ++ rest) := by
  obtain ⟨c, b, rfl⟩ := List.exists_cons_of_ne_nil hne
  exact ⟨h.isGap.congr rfl, fun ha _ => h.parting ha hne⟩

/-- The tokens of two texts with a gap between them are those of the one and those of the other. -/
theorem tokensOf_eq (h : Divides a gap b) :
    tokensOf none (a ++ (gap ++ b)) = tokensOf none a ++ tokensOf none b := by
  by_cases ha : a = []
  · subst ha
    have hfresh : Fresh (lastOr none gap) b := h.isGap.fresh (.inl rfl)
    have hgap : tokensOf none (gap ++ b) = tokensOf (lastOr none gap) b := h.isGap.tokensOf_append
    rw [List.nil_append, hgap, tokensOf_of_fresh hfresh, tokensOf_nil, List.nil_append]
  · have hparts : Parting gap ∨ b = [] := by
      by_cases hb : b = []
      · exact .inr hb
      · exact .inl (h.parting ha hb)
    have hfront : Fresh a.getLast? (gap ++ b) := by
      by_cases hgap : gap = []
      · obtain ⟨c, hc, -⟩ | rfl := hparts
        · simp [hgap] at hc
        · exact .inr (by simp [hgap])
      · exact h.isGap.fresh_front hgap
    obtain ⟨q, qs, hcut, hq, hqs⟩ := h.isGap.exists_cut hparts
    have hjoin : cut separatorWidth none 0 (a ++ (gap ++ b)) =
        joinPieces (cut separatorWidth none 0 a) (q :: qs) := by
      rw [cut_join separatorWidth_le (steady_separatorWidth hfront), lastOr_eq_getLast? ha, hcut]
    rw [tokensOf, hjoin, map_joinPieces (cut_ne_nil 0) hq, List.filter_append, hqs,
      tokensOf_of_fresh (h.isGap.fresh hfront), ← tokensOf]

end Divides

end Gaps

section Squeezing

variable {before before' : Option Char} {blank : Bool} {rest text w : List Char} {c : Char}

/-- The pieces of a text, the first one with `blank` in front of it and the others with none. -/
def squeezePieces (blank : Bool) : List (List Char) → List (List Char)
  | [] => []
  | p :: ps => squeeze blank p :: ps.map (squeeze false)

lemma squeezePieces_false (ps : List (List Char)) :
    squeezePieces false ps = ps.map (squeeze false) := by
  cases ps <;> rfl

lemma map_squeezePieces (ps : List (List Char)) :
    (squeezePieces blank ps).map trim = ps.map collapse := by
  cases ps with
  | nil => rfl
  | cons p ps => simp [squeezePieces, trim_squeeze]

lemma squeeze_eq_append (hw : ∀ c ∈ w, isBlank c = false) (h : squeeze false text = w ++ rest) :
    ∃ more, text = w ++ more ∧ rest = squeeze false more := by
  induction w generalizing text with
  | nil => exact ⟨text, rfl, h.symm⟩
  | cons c w ih =>
    obtain ⟨hc, htail⟩ := List.forall_mem_cons.mp hw
    cases text with
    | nil => cases h
    | cons d text =>
      by_cases hd : isBlank d = true
      · rw [squeeze_space hd, List.cons_append] at h
        obtain ⟨rfl, -⟩ := List.cons.inj h
        exact absurd hc (by decide)
      · rw [squeeze_cons (by simpa using hd)] at h
        obtain ⟨rfl, hnext⟩ := List.cons.inj h
        obtain ⟨more, hmore, hrest⟩ := ih htail hnext
        exact ⟨more, by rw [hmore]; rfl, hrest⟩

lemma isWord_head_squeeze (text : List Char) :
    (squeeze false text).head?.any isWord = text.head?.any isWord := by
  cases text with
  | nil => rfl
  | cons c text =>
    by_cases hc : isBlank c = true
    · rw [squeeze_space hc, List.head?_cons, List.head?_cons, Option.any_some, Option.any_some,
        isWord_of_isBlank hc]
      decide
    · rw [squeeze_cons (by simpa using hc)]
      rfl

lemma separatorWidth_squeeze (hc : isBlank c = false)
    (hbefore : before.any isWord = before'.any isWord) :
    separatorWidth before (c :: squeeze false text) = separatorWidth before' (c :: text) := by
  have hsqueeze : c :: squeeze false text = squeeze false (c :: text) := (squeeze_cons hc).symm
  by_cases hwidth : separatorWidth before' (c :: text) = 0
  · rw [hwidth, hsqueeze]
    by_contra hsome
    obtain ⟨sep, rest, hrest, hsep⟩ := exists_separator hsome
    obtain ⟨more, htext, rfl⟩ := squeeze_eq_append hsep.isBlank_eq_false hrest
    have hsep' : IsSeparator before' sep more := hsep.congr hbefore (isWord_head_squeeze more)
    rw [htext, hsep'.width, List.length_eq_zero_iff] at hwidth
    exact hsep.ne_nil hwidth
  · obtain ⟨sep, rest, hrest, hsep⟩ := exists_separator hwidth
    have hsep' : IsSeparator before sep (squeeze false rest) :=
      hsep.congr hbefore.symm (isWord_head_squeeze rest).symm
    rw [hsqueeze, hrest, squeeze_word hsep.isBlank_eq_false hsep.ne_nil, hsep'.width, hsep.width]

/-- A squeezed text has the same pieces, squeezed. -/
theorem cut_squeeze (text : List Char) (blank : Bool) (before before' : Option Char)
    (hbefore : before.any isWord = before'.any isWord)
    (hblank : blank = true → before'.any isWord = false) :
    cut separatorWidth before 0 (squeeze blank text) =
      squeezePieces blank (cut separatorWidth before' 0 text) := by
  induction hn : text.length using Nat.strong_induction_on generalizing text blank before before'
  rename_i n ih
  cases text with
  | nil => simp [squeeze, cut, squeezePieces]
  | cons c text =>
    rw [List.length_cons] at hn
    obtain ⟨p, ps, hps⟩ :=
      List.exists_cons_of_ne_nil (@cut_ne_nil separatorWidth (some c) text 0)
    by_cases hc : isBlank c = true
    · have hword := isWord_of_isBlank hc
      have hraw : cut separatorWidth before' 0 (c :: text) = (c :: p) :: ps := by
        rw [cut_blank hc, hps]
        rfl
      cases blank with
      | true =>
        have hnext := ih text.length (by omega) text true before (some c)
          (by rw [hbefore, hblank rfl, Option.any_some, hword]) (fun _ => hword) rfl
        rw [squeeze_blank hc, hnext, hraw, hps]
        simp [squeezePieces, squeeze_blank hc]
      | false =>
        have hspace : isBlank ' ' = true := by decide
        have hnext := ih text.length (by omega) text true (some ' ') (some c)
          (by rw [Option.any_some, Option.any_some, hword]; decide) (fun _ => hword) rfl
        rw [squeeze_space hc, cut_blank hspace, hnext, hraw, hps]
        simp [squeezePieces, squeeze_space hc]
    · have hc : isBlank c = false := by simpa using hc
      have hsame : separatorWidth before (c :: squeeze false text) =
          separatorWidth before' (c :: text) := separatorWidth_squeeze hc hbefore
      by_cases hwidth : separatorWidth before' (c :: text) = 0
      · have hnext := ih text.length (by omega) text false (some c) (some c) rfl (by simp) rfl
        rw [squeeze_cons hc, cut_cons (hsame.trans hwidth), cut_cons hwidth, hnext, hps]
        simp [squeezePieces, squeeze_cons hc]
      · obtain ⟨sep, rest, hrest, hsep⟩ := exists_separator hwidth
        have hsep' : IsSeparator before sep (squeeze false rest) :=
          hsep.congr hbefore.symm (isWord_head_squeeze rest).symm
        have hlast : lastOr before sep = lastOr before' sep := by
          rw [lastOr_eq_getLast? hsep.ne_nil, lastOr_eq_getLast? hsep.ne_nil]
        have hlength : rest.length < n := by
          have := List.length_pos_iff.mpr hsep.ne_nil
          have := congrArg List.length hrest
          simp only [List.length_cons, List.length_append] at this
          omega
        have hnext := ih rest.length hlength rest false (lastOr before sep) (lastOr before' sep)
          (by rw [hlast]) (by simp) rfl
        rw [hrest, squeeze_word hsep.isBlank_eq_false hsep.ne_nil, cut_isSeparator hsep',
          cut_isSeparator hsep, hnext, squeezePieces_false]
        rfl

lemma gather_filter (pending tokens : List (List Char)) :
    gather pending (tokens.filter (· ≠ [])) = gather pending tokens := by
  induction tokens generalizing pending with
  | nil => rfl
  | cons token tokens ih =>
    cases token with
    | nil =>
      rw [List.filter_cons_of_neg (by simp), ih, gather]
      rfl
    | cons c token => rw [List.filter_cons_of_pos (by simp), gather, gather, ih, ih, ih]

/-- The segments of a text are made of its tokens, though its blanks are collapsed first. -/
theorem segments_collapse (text : List Char) :
    segments (collapse text) = gather [] (tokensOf none text) := by
  obtain ⟨trail, htrail, hsqueeze⟩ := exists_squeeze_true text
  have hfresh : Fresh (collapse text).getLast? trail ∨ trail = [] := by
    obtain rfl | rfl := htrail
    · exact .inr rfl
    · exact .inl (.inr (by decide))
  have htrimmed : (cut separatorWidth none 0 (collapse text ++ trail)).map trim =
      (cut separatorWidth none 0 (collapse text)).map trim := by
    refine cut_trail separatorWidth_le (fun _ => separatorWidth_blank (by decide)) htrail ?_
    obtain hfresh | rfl := hfresh
    · exact steady_separatorWidth hfresh
    · exact fun x _ _ _ => by rw [List.append_nil]
  rw [segments, ← htrimmed, ← hsqueeze, cut_squeeze text true none none rfl (fun _ => rfl),
    map_squeezePieces, tokensOf, gather_filter]

end Squeezing

end SimplexTableau.Specification
