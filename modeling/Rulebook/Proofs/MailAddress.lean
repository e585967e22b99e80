import Mathlib.Data.List.Basic
import Rulebook.Strategy.Basic

/-!
# Mail addresses

What a mail address is, said in three ways: by the grammar of its parts (`Email.IsAddress`), by the
language of a pattern (`Email.source`, `Pattern.Node.Spells`), and by the recogniser that goes over
the text once (`Email.accepts`). All three agree (`Strategy.isEmail_exact`).

The recogniser keeps the length of the label that it is in and whether the last character was a
hyphen. That is all that matters of the part of the label that has been read, as long as this part
can begin a label at all (`Email.IsBegun`), and the induction over the text carries just that
(`Email.labels_iff`). The pattern spells a label as a first character and an optional end, in which
up to 61 characters stand before the last (`Email.isLabel_cons_iff`).
-/

set_option autoImplicit false

namespace Rulebook

namespace Email

/-! ## The grammar -/

/-- A letter or digit of the Latin alphabet without marks. -/
def IsLetterOrDigit (c : Char) : Prop :=
  'a' ≤ c ∧ c ≤ 'z' ∨ 'A' ≤ c ∧ c ≤ 'Z' ∨ '0' ≤ c ∧ c ≤ '9'

/-- The characters of the local part besides letters and digits. -/
def localSymbols : List Char := ".!#$%&'*+/=?^_\x60\x7b|\x7d~-".toList

/-- A label of a domain. -/
structure IsLabel (label : List Char) : Prop where
  nonempty : 1 ≤ label.length
  short : label.length ≤ 63
  characters : ∀ c ∈ label, IsLetterOrDigit c ∨ c = '-'
  first : label.head? ≠ some '-'
  last : label.getLast? ≠ some '-'

/-- A domain: labels with single points between them. -/
def IsDomain (s : List Char) : Prop :=
  ∃ labels : List (List Char), labels ≠ [] ∧ (∀ l ∈ labels, IsLabel l) ∧
    s = ['.'].intercalate labels

/-- A mail address: a local part and a domain with an at sign between them. -/
def IsAddress (s : List Char) : Prop :=
  ∃ localPart domain, s = localPart ++ '@' :: domain ∧ localPart ≠ [] ∧
    (∀ c ∈ localPart, IsLetterOrDigit c ∨ c ∈ localSymbols) ∧ IsDomain domain

theorem isLetterOrDigit_iff_toNat {c : Char} : IsLetterOrDigit c ↔
    97 ≤ c.toNat ∧ c.toNat ≤ 122 ∨ 65 ≤ c.toNat ∧ c.toNat ≤ 90 ∨
      48 ≤ c.toNat ∧ c.toNat ≤ 57 := by
  simp only [IsLetterOrDigit, Char.le_def, UInt32.le_iff_toNat_le]
  exact Iff.rfl

theorem IsLetterOrDigit.ne_hyphen {c : Char} (h : IsLetterOrDigit c) : c ≠ '-' := by
  rintro rfl
  rw [isLetterOrDigit_iff_toNat] at h
  exact absurd h (by decide)

theorem not_isLetterOrDigit_point : ¬IsLetterOrDigit '.' := by
  rw [isLetterOrDigit_iff_toNat]
  decide

theorem isLetterOrDigit_iff {c : Char} : isLetterOrDigit c = true ↔ IsLetterOrDigit c := by
  have hdef : isLetterOrDigit c = (decide ('A' ≤ c ∧ c ≤ 'Z') ||
      (decide ('a' ≤ c) && decide (c ≤ 'z')) || (decide ('0' ≤ c) && decide (c ≤ '9'))) := rfl
  rw [hdef, IsLetterOrDigit]
  simp only [Bool.or_eq_true, Bool.and_eq_true, decide_eq_true_eq]
  tauto

theorem isLocal_iff {c : Char} : isLocal c = true ↔ IsLetterOrDigit c ∨ c ∈ localSymbols := by
  rw [isLocal, Bool.or_eq_true, isLetterOrDigit_iff, List.contains_iff_mem]
  rfl

theorem intercalate_cons {sep : Char} {a : List Char} {as : List (List Char)} :
    [sep].intercalate (a :: as) = a ++ as.flatMap (sep :: ·) := by
  induction as generalizing a with
  | nil => simp
  | cons b as ih => rw [List.intercalate_cons_cons, ih, List.flatMap_cons]; simp

/-- What may follow the first character of a label: nothing, or up to 61 characters and a last one
that is no hyphen. -/
def IsLabelEnd (w : List Char) : Prop :=
  w = [] ∨ ∃ middle last, w = middle ++ [last] ∧ middle.length ≤ 61 ∧
    (∀ c ∈ middle, IsLetterOrDigit c ∨ c = '-') ∧ IsLetterOrDigit last

/-- A label told from its two ends. -/
theorem isLabel_cons_iff {first : Char} {w : List Char} :
    IsLabel (first :: w) ↔ IsLetterOrDigit first ∧ IsLabelEnd w := by
  constructor
  · intro h
    have hfirst : first ≠ '-' := by simpa using h.first
    refine ⟨(h.characters first List.mem_cons_self).resolve_right hfirst, ?_⟩
    obtain rfl | ⟨middle, last, rfl⟩ := List.eq_nil_or_concat w
    · exact .inl rfl
    rw [List.concat_eq_append] at h ⊢
    have hlast : last ≠ '-' := by
      have := h.last
      rw [← List.cons_append, List.getLast?_concat] at this
      exact fun hhyphen => this (congrArg some hhyphen)
    have hshort := h.short
    simp only [List.length_append, List.length_cons, List.length_nil] at hshort
    refine .inr ⟨middle, last, rfl, by omega, fun c hc => ?_, ?_⟩
    · exact h.characters c (by simp [hc])
    · exact (h.characters last (by simp)).resolve_right hlast
  · rintro ⟨hfirst, rfl | ⟨middle, last, rfl, hshort, hmiddle, hlast⟩⟩
    · refine ⟨by simp, by simp, by simpa using .inl hfirst, ?_, ?_⟩ <;>
        simpa using hfirst.ne_hyphen
    · rw [← List.cons_append]
      refine ⟨by simp, by simp; omega, ?_, by simpa using hfirst.ne_hyphen, ?_⟩
      · intro c hc
        simp only [List.cons_append, List.mem_cons, List.mem_append, List.not_mem_nil,
          or_false] at hc
        rcases hc with rfl | hc | rfl
        · exact .inl hfirst
        · exact hmiddle c hc
        · exact .inl hlast
      · rw [List.getLast?_concat]
        exact fun hhyphen => hlast.ne_hyphen (Option.some.inj hhyphen)

/-! ## The recogniser -/

/-- What can begin a label. -/
structure IsBegun (p : List Char) : Prop where
  short : p.length ≤ 63
  characters : ∀ c ∈ p, IsLetterOrDigit c ∨ c = '-'
  first : p.head? ≠ some '-'

theorem IsBegun.nil : IsBegun [] := by constructor <;> simp

/-- What stands before a part of a label begins one. -/
theorem IsLabel.isBegun {p tail : List Char} (h : IsLabel (p ++ tail)) : IsBegun p where
  short := by
    have := h.short
    simp only [List.length_append] at this
    omega
  characters := fun c hc => h.characters c (List.mem_append_left tail hc)
  first := by
    intro hp
    apply h.first
    rw [List.head?_append, hp]
    rfl

/-- The text completes a label of which a part has been read, and may add more labels. -/
def Completes (p s : List Char) : Prop :=
  ∃ (tail : List Char) (more : List (List Char)), s = tail ++ more.flatMap ('.' :: ·) ∧
    IsLabel (p ++ tail) ∧ ∀ l ∈ more, IsLabel l

theorem isDomain_iff {s : List Char} : IsDomain s ↔ Completes [] s := by
  constructor
  · rintro ⟨_ | ⟨l, more⟩, hne, hlabels, rfl⟩
    · exact absurd rfl hne
    · obtain ⟨hl, hmore⟩ := List.forall_mem_cons.1 hlabels
      exact ⟨l, more, intercalate_cons, hl, hmore⟩
  · rintro ⟨l, more, rfl, hl, hmore⟩
    exact ⟨l :: more, List.cons_ne_nil l more, List.forall_mem_cons.2 ⟨hl, hmore⟩,
      intercalate_cons.symm⟩

theorem completes_nil {p : List Char} : Completes p [] ↔ IsLabel p := by
  constructor
  · rintro ⟨tail, more, hs, hl, -⟩
    obtain ⟨rfl, -⟩ := List.append_eq_nil_iff.1 hs.symm
    simpa using hl
  · intro h
    exact ⟨[], [], rfl, by simpa using h, by simp⟩

theorem completes_point {p rest : List Char} :
    Completes p ('.' :: rest) ↔ IsLabel p ∧ Completes [] rest := by
  constructor
  · rintro ⟨_ | ⟨c, tail⟩, more, hs, hl, hmore⟩
    · obtain _ | ⟨l, more⟩ := more
      · cases hs
      · simp only [List.flatMap_cons, List.nil_append, List.cons_append, List.cons.injEq,
          true_and] at hs
        obtain ⟨hnext, hmore⟩ := List.forall_mem_cons.1 hmore
        exact ⟨by simpa using hl, l, more, hs, hnext, hmore⟩
    · -- a point is no part of a label
      obtain ⟨rfl, -⟩ := List.cons.inj hs
      rcases hl.characters '.' (by simp) with h | h
      · exact absurd h not_isLetterOrDigit_point
      · exact absurd h (by decide)
  · rintro ⟨hp, l, more, rfl, hl, hmore⟩
    exact ⟨[], l :: more, by simp, by simpa using hp, List.forall_mem_cons.2 ⟨hl, hmore⟩⟩

theorem completes_cons {p rest : List Char} {c : Char} (hc : c ≠ '.') :
    Completes p (c :: rest) ↔ IsBegun (p ++ [c]) ∧ Completes (p ++ [c]) rest := by
  constructor
  · rintro ⟨_ | ⟨c', tail⟩, more, hs, hl, hmore⟩
    · obtain _ | ⟨l, more⟩ := more
      · cases hs
      · exact absurd (List.cons.inj hs).1 hc
    · obtain ⟨rfl, hrest⟩ := List.cons.inj hs
      rw [List.append_cons] at hl
      exact ⟨hl.isBegun, tail, more, hrest, hl, hmore⟩
  · rintro ⟨-, tail, more, rfl, hl, hmore⟩
    exact ⟨c :: tail, more, rfl, by rwa [List.append_cons], hmore⟩

/-- What has been begun is a label unless it is empty or ends with a hyphen. -/
theorem IsBegun.isLabel_iff {p : List Char} (h : IsBegun p) :
    IsLabel p ↔ 0 < p.length ∧ p.getLast? ≠ some '-' :=
  ⟨fun hl => ⟨hl.nonempty, hl.last⟩,
    fun hl => ⟨hl.1, h.short, h.characters, h.first, hl.2⟩⟩

/-- One more character can follow if there is room and it is no hyphen in front. -/
theorem IsBegun.isBegun_concat_iff {p : List Char} (h : IsBegun p) {c : Char} :
    IsBegun (p ++ [c]) ↔
      p.length < 63 ∧ (IsLetterOrDigit c ∨ c = '-') ∧ (c = '-' → 0 < p.length) := by
  constructor
  · intro hc
    refine ⟨?_, hc.characters c (by simp), ?_⟩
    · have := hc.short
      simp only [List.length_append, List.length_singleton] at this
      omega
    · rintro rfl
      refine List.length_pos_iff.2 fun hp => ?_
      rw [hp] at hc
      exact hc.first rfl
  · rintro ⟨hlength, hchar, hfirst⟩
    refine ⟨by simp; omega, ?_, ?_⟩
    · intro c' hc'
      rcases List.mem_append.1 hc' with hc' | hc'
      · exact h.characters c' hc'
      · rwa [List.mem_singleton.1 hc']
    · obtain _ | ⟨a, p⟩ := p
      · intro hhead
        exact absurd (hfirst (Option.some.inj hhead)) (by simp)
      · exact h.first

/-- The recogniser for the rest of a domain finds out whether it completes the label that has been
begun. -/
theorem labels_iff {p : List Char} (h : IsBegun p) (s : List Char) :
    labels p.length (decide (p.getLast? = some '-')) s = true ↔ Completes p s := by
  induction s generalizing p with
  | nil => simp [labels, completes_nil, h.isLabel_iff]
  | cons c rest ih =>
    by_cases hpoint : c = '.'
    · subst hpoint
      have hfresh := ih IsBegun.nil
      simp only [List.length_nil, List.getLast?_nil, reduceCtorEq, decide_false] at hfresh
      rw [completes_point, h.isLabel_iff, ← hfresh]
      simp [labels]
    rw [completes_cons hpoint]
    by_cases hbegun : IsBegun (p ++ [c])
    · have hnext := ih hbegun
      obtain ⟨hlength, hchar, hfirst⟩ := h.isBegun_concat_iff.1 hbegun
      simp only [List.length_append, List.length_singleton, List.getLast?_concat,
        Option.some.injEq] at hnext
      rw [and_iff_right hbegun, ← hnext]
      by_cases hhyphen : c = '-'
      · simp [labels, hhyphen, hlength, hfirst hhyphen]
      · simp [labels, hpoint, hhyphen, hlength, isLetterOrDigit_iff,
          hchar.resolve_right hhyphen]
    · -- the recogniser stops where no label goes on
      refine iff_of_false ?_ fun hboth => hbegun hboth.1
      intro haccepted
      apply hbegun
      rw [h.isBegun_concat_iff]
      rw [labels, if_neg hpoint] at haccepted
      by_cases hhyphen : c = '-'
      · rw [if_pos hhyphen, Bool.and_eq_true, Bool.and_eq_true, decide_eq_true_eq,
          decide_eq_true_eq] at haccepted
        exact ⟨haccepted.1.2, .inr hhyphen, fun _ => haccepted.1.1⟩
      · rw [if_neg hhyphen, Bool.and_eq_true, Bool.and_eq_true, decide_eq_true_eq,
          isLetterOrDigit_iff] at haccepted
        exact ⟨haccepted.1.2, .inl haccepted.1.1,
          fun hc => absurd hc hhyphen⟩

theorem labels_start_iff {s : List Char} : labels 0 false s = true ↔ IsDomain s := by
  rw [isDomain_iff]
  exact labels_iff IsBegun.nil s

/-- The recogniser finds the at sign, which is no character of the local part. -/
theorem address_iff {begun : Bool} {s : List Char} : address begun s = true ↔
    ∃ localPart domain, s = localPart ++ '@' :: domain ∧ (begun = true ∨ localPart ≠ []) ∧
      (∀ c ∈ localPart, IsLetterOrDigit c ∨ c ∈ localSymbols) ∧ IsDomain domain := by
  induction s generalizing begun with
  | nil => simp [address]
  | cons c rest ih =>
    rw [address]
    split
    case isTrue hat =>
      subst hat
      rw [Bool.and_eq_true, labels_start_iff]
      constructor
      · rintro ⟨hbegun, hdomain⟩
        exact ⟨[], rest, rfl, .inl hbegun, by simp, hdomain⟩
      · rintro ⟨_ | ⟨c, l⟩, domain, hs, hbegun, hlocal, hdomain⟩
        · obtain ⟨-, rfl⟩ := List.cons.inj hs
          exact ⟨by simpa using hbegun, hdomain⟩
        · obtain ⟨rfl, -⟩ := List.cons.inj hs
          have hat := isLocal_iff.2 (hlocal '@' List.mem_cons_self)
          exact absurd hat (by decide)
    case isFalse hat =>
      rw [Bool.and_eq_true, isLocal_iff, ih]
      constructor
      · rintro ⟨hc, l, domain, rfl, -, hlocal, hdomain⟩
        exact ⟨c :: l, domain, rfl, .inr (List.cons_ne_nil c l),
          List.forall_mem_cons.2 ⟨hc, hlocal⟩, hdomain⟩
      · rintro ⟨_ | ⟨c', l⟩, domain, hs, -, hlocal, hdomain⟩
        · exact absurd (List.cons.inj hs).1 hat
        · obtain ⟨rfl, hrest⟩ := List.cons.inj hs
          obtain ⟨hc, hlocal⟩ := List.forall_mem_cons.1 hlocal
          exact ⟨hc, l, domain, hrest, .inl rfl, hlocal, hdomain⟩

theorem accepts_iff {s : String} : accepts s = true ↔ IsAddress s.toList := by
  rw [accepts, address_iff, IsAddress]
  simp only [Bool.false_eq_true, false_or]

end Email

/-! ## The language of a pattern -/

namespace Pattern

/-- The whole text is a word of the pattern. Parts that look at what stands around them or at what
was matched before, or that keep what they first matched, have no words of their own. -/
def Node.Spells : Node → List Char → Prop
  | .empty, u => u = []
  | .char set, u => ∃ c, u = [c] ∧ set.mem c = true
  | .seq a b, u => ∃ v w, u = v ++ w ∧ a.Spells v ∧ b.Spells w
  | .alt a b, u => a.Spells u ∨ b.Spells u
  | .group _ body, u => body.Spells u
  | .loop greed least most body, u => greed ≠ .possessive ∧ ∃ rounds : List (List Char),
      least ≤ rounds.length ∧ (∀ m ∈ most, rounds.length ≤ m) ∧
        (∀ r ∈ rounds, body.Spells r) ∧ u = rounds.flatten
  | _, _ => False

namespace Node

theorem spells_seq_seq {a b c : Node} {u : List Char} :
    (seq a (seq b c)).Spells u ↔ (seq (seq a b) c).Spells u := by
  constructor
  · rintro ⟨v, _, rfl, hv, w, x, rfl, hw, hx⟩
    exact ⟨v ++ w, x, (List.append_assoc ..).symm, ⟨v, w, rfl, hv, hw⟩, hx⟩
  · rintro ⟨_, x, rfl, ⟨v, w, rfl, hv, hw⟩, hx⟩
    exact ⟨v, w ++ x, List.append_assoc .., hv, w, x, rfl, hw, hx⟩

/-- A repeated set spells the texts over the set whose length is within the limits. -/
theorem spells_loop_char {least : Nat} {most : Option Nat} {set : CharSet} {u : List Char} :
    (loop .greedy least most (char set)).Spells u ↔
      least ≤ u.length ∧ (∀ m ∈ most, u.length ≤ m) ∧ ∀ c ∈ u, set.mem c = true := by
  constructor
  · rintro ⟨-, rounds, hleast, hmost, hrounds, rfl⟩
    obtain ⟨cs, rfl⟩ : ∃ cs : List Char, rounds = cs.map ([·]) := by
      refine ⟨rounds.flatten, ?_⟩
      clear hleast hmost
      induction rounds with
      | nil => rfl
      | cons r rounds ih =>
        obtain ⟨hr, hrounds⟩ := List.forall_mem_cons.1 hrounds
        have hmap := ih hrounds
        obtain ⟨c, rfl, -⟩ := hr
        rw [List.flatten_cons, List.singleton_append, List.map_cons, ← hmap]
    rw [List.length_map] at hleast hmost
    rw [← List.flatMap_def, List.flatMap_singleton']
    refine ⟨hleast, hmost, fun c hc => ?_⟩
    obtain ⟨c', hc', hmem⟩ := hrounds [c] (List.mem_map_of_mem hc)
    rwa [List.singleton_inj.1 hc']
  · rintro ⟨hleast, hmost, hmem⟩
    refine ⟨by decide, u.map ([·]), by simpa using hleast, by simpa using hmost, ?_, ?_⟩
    · intro r hr
      obtain ⟨c, hc, rfl⟩ := List.mem_map.1 hr
      exact ⟨c, rfl, hmem c hc⟩
    · rw [← List.flatMap_def, List.flatMap_singleton']

/-- An optional part spells nothing or what it spells once. -/
theorem spells_optional {body : Node} {u : List Char} :
    (loop .greedy 0 (some 1) body).Spells u ↔ u = [] ∨ body.Spells u := by
  constructor
  · rintro ⟨-, _ | ⟨r, _ | ⟨r', rounds⟩⟩, -, hmost, hrounds, rfl⟩
    · exact .inl rfl
    · rw [List.flatten_singleton]
      exact .inr (hrounds r List.mem_cons_self)
    · have := hmost 1 rfl
      simp only [List.length_cons] at this
      omega
  · rintro (rfl | hu)
    · exact ⟨by decide, [], by simp, by simp, by simp, rfl⟩
    · exact ⟨by decide, [u], by simp, by simp, by simpa using hu, by simp⟩

end Node

end Pattern

/-! ## The pattern of mail addresses -/

namespace Email

open Pattern

/-- The pattern of mail addresses, as it is written. -/
def source : String :=
  "[a-zA-Z0-9.!#$%&'*+/=?^_\x60\x7b|\x7d~-]+@[a-zA-Z0-9](?:[a-zA-Z0-9-]\x7b0,61\x7d[a-zA-Z0-9])?"
    ++ "(?:\\.[a-zA-Z0-9](?:[a-zA-Z0-9-]\x7b0,61\x7d[a-zA-Z0-9])?)*"

/-- The set of some characters, none of which stands for another. -/
def among (items : List Item) : CharSet := ⟨false, items, .exact, false⟩

/-- The ranges of the letters and digits. -/
def letterOrDigit : List Item := [.between 97 122, .between 65 90, .between 48 57]

/-- The single characters of a list. -/
def singles (cs : List Char) : List Item := cs.map fun c => .between c.toNat c.toNat

/-- What may follow the first character of a label. -/
def labelEnd : Node :=
  .loop .greedy 0 (some 1)
    (.seq (.loop .greedy 0 (some 61) (.char (among (letterOrDigit ++ singles ['-']))))
      (.char (among letterOrDigit)))

/-- The further labels. -/
def moreLabels : Node :=
  .loop .greedy 0 none
    (.seq (.char (among (singles ['.']))) (.seq (.char (among letterOrDigit)) labelEnd))

/-- The pattern of mail addresses. -/
def pattern : Node :=
  .seq (.loop .greedy 1 none (.char (among (letterOrDigit ++ singles localSymbols))))
    (.seq (.char (among (singles ['@'])))
      (.seq (.char (among letterOrDigit)) (.seq labelEnd moreLabels)))

theorem parse_source : (Pattern.parse source).toOption.map (·.1) = some pattern := by
  decide +kernel

theorem mem_among {items : List Item} {c : Char} :
    (among items).mem c = true ↔ ∃ i ∈ items, CharSet.itemMem false c i = true := by
  simp [among, CharSet.mem, Folding.apply]

theorem mem_letterOrDigit {c : Char} :
    (∃ i ∈ letterOrDigit, CharSet.itemMem false c i = true) ↔ IsLetterOrDigit c := by
  rw [isLetterOrDigit_iff_toNat]
  simp [letterOrDigit, CharSet.itemMem]

theorem mem_singles {cs : List Char} {c : Char} :
    (∃ i ∈ singles cs, CharSet.itemMem false c i = true) ↔ c ∈ cs := by
  simp only [singles, List.mem_map, exists_exists_and_eq_and, CharSet.itemMem, Bool.and_eq_true,
    decide_eq_true_eq]
  constructor
  · rintro ⟨d, hd, hle, hge⟩
    rwa [← Char.toNat_inj.1 (Nat.le_antisymm hle hge)]
  · intro hc
    exact ⟨c, hc, Nat.le_refl _, Nat.le_refl _⟩

theorem mem_among_letterOrDigit {c : Char} :
    (among letterOrDigit).mem c = true ↔ IsLetterOrDigit c :=
  mem_among.trans mem_letterOrDigit

theorem mem_among_letterOrDigit_append {cs : List Char} {c : Char} :
    (among (letterOrDigit ++ singles cs)).mem c = true ↔ IsLetterOrDigit c ∨ c ∈ cs := by
  rw [mem_among, ← mem_letterOrDigit, ← @mem_singles cs]
  simp only [List.mem_append, or_and_right, exists_or]

theorem spells_single {d : Char} {u : List Char} :
    (Node.char (among (singles [d]))).Spells u ↔ u = [d] := by
  simp only [Node.Spells, mem_among.trans mem_singles, List.mem_singleton]
  constructor
  · rintro ⟨c, rfl, rfl⟩
    rfl
  · rintro rfl
    exact ⟨d, rfl, rfl⟩

theorem spells_labelEnd {w : List Char} : labelEnd.Spells w ↔ IsLabelEnd w := by
  rw [labelEnd, Node.spells_optional, IsLabelEnd]
  refine or_congr_right ?_
  constructor
  · rintro ⟨middle, _, rfl, hmiddle, last, rfl, hlast⟩
    obtain ⟨-, hshort, hmem⟩ := Node.spells_loop_char.1 hmiddle
    refine ⟨middle, last, rfl, hshort 61 rfl, fun c hc => ?_, mem_among_letterOrDigit.1 hlast⟩
    simpa using mem_among_letterOrDigit_append.1 (hmem c hc)
  · rintro ⟨middle, last, rfl, hshort, hmiddle, hlast⟩
    refine ⟨middle, [last], rfl, Node.spells_loop_char.2 ⟨by simp, by simpa using hshort, ?_⟩,
      last, rfl, mem_among_letterOrDigit.2 hlast⟩
    intro c hc
    exact mem_among_letterOrDigit_append.2 (by simpa using hmiddle c hc)

theorem spells_label {u : List Char} :
    (Node.seq (.char (among letterOrDigit)) labelEnd).Spells u ↔ IsLabel u := by
  constructor
  · rintro ⟨_, w, rfl, ⟨first, rfl, hfirst⟩, hw⟩
    exact isLabel_cons_iff.2 ⟨mem_among_letterOrDigit.1 hfirst, spells_labelEnd.1 hw⟩
  · intro h
    obtain _ | ⟨first, w⟩ := u
    · exact absurd h.nonempty (by simp)
    obtain ⟨hfirst, hw⟩ := isLabel_cons_iff.1 h
    exact ⟨[first], w, rfl, ⟨first, rfl, mem_among_letterOrDigit.2 hfirst⟩,
      spells_labelEnd.2 hw⟩

/-- The further labels each have a point in front. -/
theorem spells_moreLabels {u : List Char} : moreLabels.Spells u ↔
    ∃ more : List (List Char), (∀ l ∈ more, IsLabel l) ∧ u = more.flatMap ('.' :: ·) := by
  constructor
  · rintro ⟨-, rounds, -, -, hrounds, rfl⟩
    induction rounds with
    | nil => exact ⟨[], by simp, rfl⟩
    | cons r rounds ih =>
      obtain ⟨hr, hrounds⟩ := List.forall_mem_cons.1 hrounds
      obtain ⟨more, hmore, heq⟩ := ih hrounds
      obtain ⟨_, l, rfl, hpoint, hl⟩ := hr
      refine ⟨l :: more, List.forall_mem_cons.2 ⟨spells_label.1 hl, hmore⟩, ?_⟩
      rw [spells_single.1 hpoint, List.flatten_cons, heq, List.flatMap_cons,
        List.singleton_append]
  · rintro ⟨more, hmore, rfl⟩
    refine ⟨by decide, more.map ('.' :: ·), by simp, by simp, ?_, List.flatMap_def⟩
    intro r hr
    obtain ⟨l, hl, rfl⟩ := List.mem_map.1 hr
    exact ⟨['.'], l, rfl, spells_single.2 rfl, spells_label.2 (hmore l hl)⟩

/-- A first label and further ones make up a domain. -/
theorem spells_domain {s : List Char} :
    (Node.seq (.char (among letterOrDigit)) (.seq labelEnd moreLabels)).Spells s ↔
      IsDomain s := by
  rw [Node.spells_seq_seq, isDomain_iff]
  constructor
  · rintro ⟨l, u, rfl, hl, hu⟩
    obtain ⟨more, hmore, rfl⟩ := spells_moreLabels.1 hu
    exact ⟨l, more, rfl, spells_label.1 hl, hmore⟩
  · rintro ⟨l, more, rfl, hl, hmore⟩
    exact ⟨l, _, rfl, spells_label.2 hl, spells_moreLabels.2 ⟨more, hmore, rfl⟩⟩

/-- The pattern spells the mail addresses. -/
theorem spells_pattern {s : List Char} : pattern.Spells s ↔ IsAddress s := by
  constructor
  · rintro ⟨localPart, _, rfl, hlocal, _, domain, rfl, hat, hdomain⟩
    obtain ⟨hlength, -, hmem⟩ := Node.spells_loop_char.1 hlocal
    rw [spells_single.1 hat]
    exact ⟨localPart, domain, rfl, List.length_pos_iff.1 hlength,
      fun c hc => mem_among_letterOrDigit_append.1 (hmem c hc), spells_domain.1 hdomain⟩
  · rintro ⟨localPart, domain, rfl, hne, hlocal, hdomain⟩
    refine ⟨localPart, '@' :: domain, rfl, Node.spells_loop_char.2 ?_, ['@'], domain, rfl,
      spells_single.2 rfl, spells_domain.2 hdomain⟩
    exact ⟨List.length_pos_iff.2 hne, by simp,
      fun c hc => mem_among_letterOrDigit_append.2 (hlocal c hc)⟩

end Email

namespace Strategy

/-- Exactly the mail addresses pass. Their grammar is the language of the pattern, and anything else
is complained about. -/
theorem isEmail_exact :
    (Pattern.parse Email.source).toOption.map (·.1) = some Email.pattern ∧
    (∀ s, Email.pattern.Spells s ↔ Email.IsAddress s) ∧
    ∀ w v d property,
      (isEmail w v d property = .ok none ↔
        ∃ s, w.heap.text? v = some s ∧ Email.IsAddress s.toList) ∧
      (isEmail w v d property = .ok (some (property ++ " must be a valid email address")) ↔
        ¬∃ s, w.heap.text? v = some s ∧ Email.IsAddress s.toList) := by
  refine ⟨Email.parse_source, fun s => Email.spells_pattern, fun w v d property => ?_⟩
  rw [isEmail]
  cases htext : w.heap.text? v with
  | none => simp
  | some s => simp [← Email.accepts_iff]

end Strategy

end Rulebook
