import SimplexTableau.Proofs.Outlines

/-!
# Separators as they stand in a text

A comma, a semicolon or the word `and` separates constraints, and the word does so if it touches no
word character. Where a separator is found, one stands, and the other way round. What follows a text
makes no difference to its separators unless a word goes on.
-/

namespace SimplexTableau.Specification

open SimplexTableau.Text

section Separators

variable {before before' : Option Char} {a sep rest rest' text : List Char} {c : Char}

/-- A separator with the character in front of it and the text behind it. -/
inductive IsSeparator (before : Option Char) : (sep rest : List Char) → Prop where
  | comma (rest : List Char) : IsSeparator before [','] rest
  | semicolon (rest : List Char) : IsSeparator before [';'] rest
  | word {w rest : List Char} (hw : w.map Char.toLower = ['a', 'n', 'd'])
      (hbefore : before.any isWord = false) (hrest : rest.head?.any isWord = false) :
      IsSeparator before w rest

lemma isWord_of_toLower (h : c.toLower ∈ ['a', 'n', 'd']) : isWord c = true := by
  have hascii : c.toNat < 128 := by
    by_contra hlarge
    have hlower : ∀ d ∈ ['a', 'n', 'd'], d.toNat < 128 := by simp
    exact hlarge (hlower c (toLower_eq_self (c := c) (.inr (by omega)) ▸ h))
  have hall : ∀ n < 128, (Char.ofNat n).toLower ∈ ['a', 'n', 'd'] →
      isWord (Char.ofNat n) = true := by
    decide +kernel
  have := hall c.toNat hascii
  rw [Char.ofNat_toNat] at this
  exact this h

lemma isWord_of_isBlank (h : isBlank c = true) : isWord c = false := by
  by_contra hword
  rw [isBlank_of_isWord (by simpa using hword)] at h
  cases h

lemma isWord_of_and {w : List Char} (hw : w.map Char.toLower = ['a', 'n', 'd']) :
    ∀ c ∈ w, isWord c = true :=
  fun _ hc => isWord_of_toLower (hw ▸ List.mem_map_of_mem hc)

/-- A word character on one side at most. -/
def Fresh (before : Option Char) (rest : List Char) : Prop :=
  before.any isWord = false ∨ rest.head?.any isWord = false

namespace IsSeparator

lemma ne_nil (h : IsSeparator before sep rest) : sep ≠ [] := by
  cases h with
  | comma => exact List.cons_ne_nil _ _
  | semicolon => exact List.cons_ne_nil _ _
  | word hw =>
    rintro rfl
    cases hw

lemma isBlank_eq_false (h : IsSeparator before sep rest) : ∀ c ∈ sep, isBlank c = false := by
  cases h with
  | comma => simp [isBlank, isSpace]
  | semicolon => simp [isBlank, isSpace]
  | word hw => exact fun c hc => isBlank_of_isWord (isWord_of_and hw c hc)

lemma congr (h : IsSeparator before sep rest) (hbefore : before.any isWord = before'.any isWord)
    (hrest : rest.head?.any isWord = rest'.head?.any isWord) : IsSeparator before' sep rest' := by
  cases h with
  | comma => exact .comma _
  | semicolon => exact .semicolon _
  | word hw hb hr => exact .word hw (hbefore ▸ hb) (hrest ▸ hr)

theorem width (h : IsSeparator before sep rest) :
    separatorWidth before (sep ++ rest) = sep.length := by
  cases h with
  | comma => rfl
  | semicolon => rfl
  | word hw hbefore hrest => exact separatorWidth_and hw hbefore hrest

lemma isWord_of_length (h : IsSeparator before sep rest) (hlength : 1 < sep.length) :
    ∀ c ∈ sep, isWord c = true := by
  cases h with
  | comma => simp at hlength
  | semicolon => simp at hlength
  | word hw => exact isWord_of_and hw

lemma append_iff (h : Fresh (sep ++ a).getLast? rest) :
    IsSeparator before sep (a ++ rest) ↔ IsSeparator before sep a := by
  cases a with
  | cons c a => exact ⟨fun hsep => hsep.congr rfl rfl, fun hsep => hsep.congr rfl rfl⟩
  | nil =>
    rw [List.append_nil] at h
    constructor
    · rintro (_ | _ | ⟨hw, hbefore⟩)
      · exact .comma _
      · exact .semicolon _
      · exact .word hw hbefore rfl
    · rintro (_ | _ | ⟨hw, hbefore⟩)
      · exact .comma _
      · exact .semicolon _
      · refine .word hw hbefore (h.resolve_left ?_)
        obtain ⟨a, n, d, rfl, -, -, hd⟩ := exists_and_letters hw
        have hword : isWord d = true := isWord_of_toLower (by simp [hd])
        simp [hword]

end IsSeparator

lemma exists_separator (h : separatorWidth before text ≠ 0) :
    ∃ sep rest, text = sep ++ rest ∧ IsSeparator before sep rest := by
  unfold separatorWidth at h
  split at h
  · exact ⟨[','], _, rfl, .comma _⟩
  · exact ⟨[';'], _, rfl, .semicolon _⟩
  · split at h
    · next after hafter =>
      split_ifs at h with hword
      · exact absurd rfl h
      · simp only [Bool.or_eq_true, not_or, Bool.not_eq_true] at hword
        obtain _ | ⟨a, _ | ⟨n, _ | ⟨d, text⟩⟩⟩ := text
        all_goals simp [afterPhrase?, sameLetter_and] at hafter
        obtain ⟨ha, hn, hd, rfl⟩ := hafter
        exact ⟨[a, n, d], text, rfl, .word (by simp [ha, hn, hd]) hword.1 hword.2⟩
    · exact absurd rfl h

lemma separatorWidth_le (before : Option Char) (cs : List Char) :
    separatorWidth before cs ≤ cs.length := by
  by_cases h : separatorWidth before cs = 0
  · rw [h]
    exact Nat.zero_le _
  · obtain ⟨sep, rest, rfl, hsep⟩ := exists_separator h
    rw [hsep.width, List.length_append]
    exact Nat.le_add_right _ _

lemma separatorWidth_blank (h : isBlank c = true) : separatorWidth before (c :: rest) = 0 := by
  by_contra hne
  obtain ⟨sep, more, htext, hsep⟩ := exists_separator hne
  obtain ⟨d, sep, rfl⟩ := List.exists_cons_of_ne_nil hsep.ne_nil
  obtain ⟨rfl, -⟩ := List.cons.inj htext
  rw [hsep.isBlank_eq_false c List.mem_cons_self] at h
  cases h

/-- What follows makes no difference to the separators of a text if no word goes on. -/
lemma steady_separatorWidth (h : Fresh a.getLast? rest) : Steady separatorWidth a rest := by
  intro x hx hne before
  have hlast : x.getLast? = a.getLast? := by
    obtain ⟨y, rfl⟩ := hx
    rw [List.getLast?_append_of_ne_nil _ hne]
  rw [← hlast] at h
  by_cases hwidth : separatorWidth before x = 0
  · rw [hwidth]
    by_contra hsome
    obtain ⟨sep, r, htext, hsep⟩ := exists_separator hsome
    obtain ⟨y, rfl⟩ : ∃ y, x = sep ++ y := by
      obtain ⟨y, rfl, rfl⟩ | ⟨y, rfl, rfl⟩ := List.append_eq_append_iff.mp htext
      · cases y with
        | nil => exact ⟨[], by simp⟩
        | cons d y =>
          have hlength : 1 < (x ++ d :: y).length := by
            have := List.length_pos_iff.mpr hne
            simp only [List.length_append, List.length_cons]
            omega
          have hword := hsep.isWord_of_length hlength
          rw [Fresh, List.getLast?_eq_some_getLast hne] at h
          simp [hword (x.getLast hne) (by simp), hword d (by simp)] at h
      · exact ⟨y, rfl⟩
    rw [List.append_assoc] at htext
    obtain rfl := List.append_cancel_left htext
    have hwidth' := ((IsSeparator.append_iff h).mp hsep).width
    rw [hwidth, eq_comm, List.length_eq_zero_iff] at hwidth'
    exact hsep.ne_nil hwidth'
  · obtain ⟨sep, y, rfl, hsep⟩ := exists_separator hwidth
    rw [List.append_assoc, ((IsSeparator.append_iff h).mpr hsep).width, hsep.width]

end Separators

end SimplexTableau.Specification
