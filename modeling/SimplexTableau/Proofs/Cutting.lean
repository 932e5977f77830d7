import Mathlib
import SimplexTableau.Text.Blank
import SimplexTableau.Text.Phrase

/-!
# Cutting texts

A text of words with single spaces between them is what is left of it when blanks are collapsed or
trimmed. A cut leaves a part of a text whole if no separator starts inside it, which may depend on
the character in front and on what follows. So a text is cut step by step, from one separator to
the next.
-/

namespace SimplexTableau.Text

section Strip

variable {p : Char → Bool} {cs : List Char} {c : Char}

lemma strip_cons (h : p c = true) : strip p (c :: cs) = strip p cs := by
  rw [strip, List.dropWhile_cons_of_pos h, strip]

lemma strip_concat (h : p c = true) : strip p (cs ++ [c]) = strip p cs := by
  rw [strip, List.dropWhile_append]
  cases he : cs.dropWhile p with
  | nil => simp [strip, he, h]
  | cons d ds => simp [strip, he, h]

lemma strip_eq_self (hfirst : ∀ c ∈ cs.head?, p c = false)
    (hlast : ∀ c ∈ cs.getLast?, p c = false) : strip p cs = cs := by
  have hdrop : ∀ {ds : List Char}, (∀ c ∈ ds.head?, p c = false) → ds.dropWhile p = ds := by
    rintro (_ | ⟨d, ds⟩) hd
    · rfl
    · rw [List.dropWhile_cons_of_neg (by simp [hd d rfl])]
  rw [strip, hdrop hfirst, hdrop (by simpa using hlast), List.reverse_reverse]

lemma strip_of_forall (h : ∀ c ∈ cs, p c = false) : strip p cs = cs :=
  strip_eq_self (fun c hc => h c (List.mem_of_mem_head? hc))
    fun c hc => h c (List.mem_of_mem_getLast? hc)

end Strip

/-- Words with single spaces between them. -/
inductive Tidy : List Char → Prop where
  | word {w : List Char} (hne : w ≠ []) (hw : ∀ c ∈ w, isBlank c = false) : Tidy w
  | cons {w cs : List Char} (hne : w ≠ []) (hw : ∀ c ∈ w, isBlank c = false) (hcs : Tidy cs) :
      Tidy (w ++ ' ' :: cs)

section Words

variable {a b w cs : List Char} {ws : List (List Char)} {c d : Char}

lemma words_cons_blank (h : isBlank c = true) : words (c :: cs) = words cs := by
  rw [words.eq_def]
  simp only [h, if_true]

lemma words_singleton (h : isBlank c = false) : words [c] = [[c]] := by
  rw [words.eq_def]
  simp only [h, Bool.false_eq_true, if_false]
  rfl

lemma words_cons_end (h : isBlank c = false) (hd : isBlank d = true) :
    words (c :: d :: cs) = [c] :: words cs := by
  rw [words.eq_def (c :: d :: cs)]
  simp only [h, Bool.false_eq_true, if_false, words_cons_blank hd]
  cases words cs with
  | nil => rfl
  | cons w ws => simp only [hd, if_true]

lemma words_cons_cons (h : isBlank c = false) (hd : isBlank d = false)
    (hw : words (d :: cs) = w :: ws) : words (c :: d :: cs) = (c :: w) :: ws := by
  rw [words.eq_def (c :: d :: cs)]
  simp only [h, hd, hw, Bool.false_eq_true, if_false]

lemma words_word (hne : w ≠ []) (hw : ∀ c ∈ w, isBlank c = false) : words w = [w] := by
  induction w with
  | nil => exact absurd rfl hne
  | cons c w ih =>
    obtain ⟨hc, hw⟩ := List.forall_mem_cons.mp hw
    cases w with
    | nil => exact words_singleton hc
    | cons d w => exact words_cons_cons hc (hw d List.mem_cons_self) (ih (List.cons_ne_nil _ _) hw)

lemma words_word_append (hne : w ≠ []) (hw : ∀ c ∈ w, isBlank c = false) :
    words (w ++ ' ' :: cs) = w :: words cs := by
  induction w with
  | nil => exact absurd rfl hne
  | cons c w ih =>
    obtain ⟨hc, hw⟩ := List.forall_mem_cons.mp hw
    cases w with
    | nil => exact words_cons_end hc (by decide)
    | cons d w => exact words_cons_cons hc (hw d List.mem_cons_self) (ih (List.cons_ne_nil _ _) hw)

/-- A word starts at a character that is not blank, and it goes on unless a blank follows. -/
lemma words_cons (cs : List Char) (h : isBlank c = false) :
    words (c :: cs) = [c] :: words cs ∧ (∀ d ∈ cs.head?, isBlank d = true) ∨
      ∃ w ws, words cs = w :: ws ∧ words (c :: cs) = (c :: w) :: ws ∧
        ∃ d ds, cs = d :: ds ∧ isBlank d = false := by
  induction cs generalizing c with
  | nil => exact .inl ⟨words_singleton h, by simp⟩
  | cons d cs ih =>
    by_cases hd : isBlank d = true
    · rw [words_cons_end h hd, words_cons_blank hd]
      exact .inl ⟨rfl, by simpa using hd⟩
    · have hd : isBlank d = false := by simpa using hd
      obtain ⟨w, ws, hw⟩ : ∃ w ws, words (d :: cs) = w :: ws := by
        obtain ⟨hw, -⟩ | ⟨w, ws, -, hw, -⟩ := ih hd <;> exact ⟨_, _, hw⟩
      exact .inr ⟨w, ws, hw, words_cons_cons h hd hw, d, cs, rfl, hd⟩

lemma words_append_blank (h : isBlank c = true) : words (a ++ c :: b) = words a ++ words b := by
  induction a with
  | nil => exact words_cons_blank h
  | cons d a ih =>
    by_cases hd : isBlank d = true
    · rw [List.cons_append, words_cons_blank hd, words_cons_blank hd, ih]
    · have hd : isBlank d = false := by simpa using hd
      cases a with
      | nil => rw [List.singleton_append, words_cons_end hd h, words_singleton hd]; rfl
      | cons e a =>
        obtain ⟨hw, he⟩ | ⟨w, ws, hws, hw, _, _, ⟨⟩, he⟩ := words_cons (e :: a) hd
        · rw [List.cons_append, List.cons_append, words_cons_end hd (he e rfl), hw,
            List.cons_append, ← ih, List.cons_append, words_cons_blank (he e rfl)]
        · have hrest : words (e :: (a ++ c :: b)) = w :: (ws ++ words b) := by
            rw [← List.cons_append, ih, hws, List.cons_append]
          rw [hw, List.cons_append, List.cons_append, words_cons_cons hd he hrest,
            List.cons_append]

lemma mem_words (h : w ∈ words cs) : w ≠ [] ∧ ∀ c ∈ w, isBlank c = false := by
  induction cs generalizing w with
  | nil => cases h
  | cons c cs ih =>
    by_cases hc : isBlank c = true
    · exact ih (words_cons_blank hc ▸ h)
    · have hc : isBlank c = false := by simpa using hc
      obtain ⟨hw, -⟩ | ⟨u, ws, hws, hw, -⟩ := words_cons cs hc
      · rw [hw, List.mem_cons] at h
        obtain rfl | h := h
        · simpa using hc
        · exact ih h
      · rw [hw, List.mem_cons] at h
        obtain rfl | h := h
        · exact ⟨List.cons_ne_nil _ _, List.forall_mem_cons.mpr
            ⟨hc, (ih (hws ▸ List.mem_cons_self)).2⟩⟩
        · exact ih (hws ▸ List.mem_cons_of_mem _ h)

lemma flatten_words (cs : List Char) : (words cs).flatten = cs.filter (!isBlank ·) := by
  induction cs with
  | nil => rfl
  | cons c cs ih =>
    by_cases hc : isBlank c = true
    · rw [words_cons_blank hc, ih, List.filter_cons_of_neg (by simp [hc])]
    · have hc : isBlank c = false := by simpa using hc
      rw [List.filter_cons_of_pos (by simp [hc]), ← ih]
      obtain ⟨hw, -⟩ | ⟨u, ws, hws, hw, -⟩ := words_cons cs hc
      · rw [hw]
        rfl
      · rw [hw, hws]
        rfl

namespace Tidy

lemma append (ha : Tidy a) (hb : Tidy b) : Tidy (a ++ ' ' :: b) := by
  induction ha with
  | word hne hw => exact .cons hne hw hb
  | cons hne hw _ ih =>
    rw [List.append_assoc, List.cons_append]
    exact .cons hne hw ih

lemma append_word (ha : Tidy a) (hw : ∀ c ∈ w, isBlank c = false) : Tidy (a ++ w) := by
  induction ha with
  | word hne ha =>
    exact .word (List.append_ne_nil_of_left_ne_nil hne w)
      fun c hc => (List.mem_append.mp hc).elim (ha c) (hw c)
  | cons hne ha _ ih =>
    rw [List.append_assoc, List.cons_append]
    exact .cons hne ha ih

lemma ne_nil (h : Tidy a) : a ≠ [] := by
  cases h with
  | word hne => exact hne
  | cons hne => exact List.append_ne_nil_of_left_ne_nil hne _

lemma head? (h : Tidy a) : ∀ c ∈ a.head?, isBlank c = false := by
  cases h with
  | word hne hw => exact fun c hc => hw c (List.mem_of_mem_head? hc)
  | cons hne hw _ =>
    intro c hc
    rw [List.head?_append_of_ne_nil _ hne] at hc
    exact hw c (List.mem_of_mem_head? hc)

lemma getLast? (h : Tidy a) : ∀ c ∈ a.getLast?, isBlank c = false := by
  induction h with
  | word hne hw => exact fun c hc => hw c (List.mem_of_mem_getLast? hc)
  | @cons w cs hne hw hcs ih =>
    intro c hc
    rw [List.getLast?_append_of_ne_nil _ (List.cons_ne_nil _ _),
      List.getLast?_cons_of_ne_nil hcs.ne_nil] at hc
    exact ih c hc

theorem trim_eq (h : Tidy a) : trim a = a :=
  strip_eq_self h.head? h.getLast?

lemma intercalate_words (h : Tidy a) : words a ≠ [] ∧ [' '].intercalate (words a) = a := by
  induction h with
  | word hne hw => simp [words_word hne hw]
  | cons hne hw _ ih =>
    rw [words_word_append hne hw]
    refine ⟨List.cons_ne_nil _ _, ?_⟩
    rw [List.intercalate_cons_of_ne_nil ih.1, ih.2]
    simp

/-- Collapsing blanks changes nothing in a tidy text. -/
theorem collapse_eq (h : Tidy a) : collapse a = a :=
  h.intercalate_words.2

lemma words_concat (h : Tidy a) : words (a ++ [' ']) = words a := by
  induction h with
  | word hne hw =>
    rw [words_word_append hne hw, words_word hne hw]
    rfl
  | cons hne hw _ ih =>
    rw [List.append_assoc, List.cons_append, words_word_append hne hw, ih,
      words_word_append hne hw]

lemma collapse_concat (h : Tidy a) : collapse (a ++ [' ']) = a := by
  rw [collapse, h.words_concat, h.intercalate_words.2]

end Tidy

end Words

section Cut

variable {width : Option Char → List Char → ℕ} {before : Option Char} {a b rest : List Char}

/-- No separator starts inside a text that has `before` in front of it and `rest` behind it. -/
def Inert (width : Option Char → List Char → ℕ) : Option Char → List Char → List Char → Prop
  | _, [], _ => True
  | before, c :: cs, rest => width before (c :: cs ++ rest) = 0 ∧ Inert width (some c) cs rest

/-- The last character of a text, or the one in front of it. -/
def lastOr (before : Option Char) (cs : List Char) : Option Char :=
  cs.foldl (fun _ c => some c) before

lemma inert_append :
    Inert width before (a ++ b) rest ↔
      Inert width before a (b ++ rest) ∧ Inert width (lastOr before a) b rest := by
  induction a generalizing before with
  | nil => simp [Inert, lastOr]
  | cons c a ih => simp [Inert, ih, and_assoc, lastOr]

lemma inert_of_forall (h : ∀ c ∈ a, ∀ before cs, width before (c :: cs) = 0) :
    Inert width before a rest := by
  induction a generalizing before with
  | nil => trivial
  | cons c a ih =>
    obtain ⟨hc, ha⟩ := List.forall_mem_cons.mp h
    exact ⟨hc _ _, ih ha⟩

lemma cut_ne_nil (skip : ℕ) : cut width before skip a ≠ [] := by
  induction a generalizing before skip with
  | nil => exact List.cons_ne_nil _ _
  | cons c a ih =>
    cases skip with
    | succ k => exact ih k
    | zero =>
      rw [cut]
      split
      · exact List.cons_ne_nil _ _
      · split <;> exact List.cons_ne_nil _ _

/-- A part in which no separator starts is joined to the first piece of what follows. -/
lemma cut_append (h : Inert width before a rest) :
    cut width before 0 (a ++ rest) =
      (cut width (lastOr before a) 0 rest).modifyHead (a ++ ·) := by
  induction a generalizing before with
  | nil =>
    cases hcut : cut width before 0 rest with
    | nil => exact absurd hcut (cut_ne_nil 0)
    | cons piece pieces => simp [lastOr, hcut]
  | cons c a ih =>
    obtain ⟨hc, ha⟩ := h
    have hrest : cut width (some c) 0 (a ++ rest) = _ := ih ha
    rw [List.cons_append] at hc ⊢
    simp only [cut, hc, hrest]
    cases hcut : cut width (lastOr (some c) a) 0 rest with
    | nil => exact absurd hcut (cut_ne_nil 0)
    | cons piece pieces =>
      rw [lastOr, List.foldl_cons, ← lastOr, hcut]
      rfl

lemma cut_cons {c : Char} (h : width before (c :: rest) = 0) :
    cut width before 0 (c :: rest) = (cut width (some c) 0 rest).modifyHead (c :: ·) :=
  cut_append (a := [c]) ⟨h, trivial⟩

lemma cut_skip : cut width before a.length (a ++ rest) = cut width (lastOr before a) 0 rest := by
  induction a generalizing before with
  | nil => rfl
  | cons c a ih => exact ih

lemma cut_whole (h : Inert width before a []) : cut width before 0 a = [a] := by
  have := cut_append h
  rw [List.append_nil] at this
  rw [this]
  simp [cut]

lemma cut_separator {sep : List Char} (h : Inert width before a (sep ++ rest)) (hne : sep ≠ [])
    (hsep : width (lastOr before a) (sep ++ rest) = sep.length) :
    cut width before 0 (a ++ (sep ++ rest)) =
      a :: cut width (lastOr before (a ++ sep)) 0 rest := by
  obtain ⟨c, sep, rfl⟩ := List.exists_cons_of_ne_nil hne
  have hskip : cut width (lastOr before a) 0 (c :: sep ++ rest) =
      [] :: cut width (lastOr (some c) sep) 0 rest := by
    have hpass : cut width (some c) sep.length (sep ++ rest) =
        cut width (lastOr (some c) sep) 0 rest := cut_skip
    rw [List.cons_append] at hsep ⊢
    simp only [cut, hsep, List.length_cons, hpass]
  rw [cut_append h, hskip]
  simp [lastOr]

end Cut

end SimplexTableau.Text
