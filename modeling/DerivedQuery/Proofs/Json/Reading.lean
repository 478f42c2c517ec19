import Mathlib.Data.List.Forall2
import DerivedQuery.Json.Form
import DerivedQuery.Proofs.Json.Numeral
import DerivedQuery.Proofs.Json.Quoted
import DerivedQuery.Proofs.Text.Ascii

/-!
# Reading written values back

The compact text of a value is one line, and it is read as the form of the value, where a number stands
for what its own text is read as (`Form.ofText?_compact`).

The two passes of reading are kept apart. `Lexeme.Lexes` says that characters fall into lexemes, of
which the last may be a word that goes on until punctuation or the end (`Lexeme.Settled`), and
`Form.Parses` that lexemes make up a form wherever a value may stand. `Form.Line` puts both together,
and containers are put together from the lines of their parts, as the printer does it.
-/

namespace DerivedQuery.Json

/-! ## Lexemes -/

namespace Lexeme

/-- Reading has finished these lexemes, the last one first, up to a word that punctuation or the end of
the text would finish. -/
inductive Settled : Progress → List Lexeme → Prop
  | between (lexemes : List Lexeme) : Settled ⟨lexemes, .between⟩ lexemes
  | bare {lexemes : List Lexeme} {read : List Char} {lexeme : Lexeme}
      (h : ofBare? read.reverse = some lexeme) : Settled ⟨lexemes, .bare read⟩ (lexeme :: lexemes)

theorem start?_punctuation {c : Char} {lexeme : Lexeme} (h : ofPunctuation? c = some lexeme)
    (lexemes : List Lexeme) :
    isBare c = false ∧ start? lexemes c = some ⟨lexeme :: lexemes, .between⟩ := by
  unfold ofPunctuation? at h
  split_ifs at h with h₁ h₂ h₃ h₄ h₅ h₆ <;> cases h <;> subst c <;> exact ⟨by decide, rfl⟩

/-- Punctuation finishes what was settled. -/
theorem Settled.step? {p : Progress} {lexemes : List Lexeme} (h : Settled p lexemes) {c : Char}
    {lexeme : Lexeme} (hc : ofPunctuation? c = some lexeme) :
    Lexeme.step? p c = some ⟨lexeme :: lexemes, .between⟩ := by
  cases h with
  | between => exact (start?_punctuation hc _).2
  | bare hword =>
    simp [Lexeme.step?, (start?_punctuation hc []).1, hword, (start?_punctuation hc _).2]

theorem Settled.finish? {p : Progress} {lexemes : List Lexeme} (h : Settled p lexemes) :
    Lexeme.finish? p = some lexemes.reverse := by
  cases h with
  | between => rfl
  | bare hword => simp [Lexeme.finish?, hword]

/-- The characters fall into these lexemes. -/
def Lexes (chars : List Char) (lexemes : List Lexeme) : Prop :=
  ∀ before, ∃ p, run? ⟨before, .between⟩ chars = some p ∧ Settled p (lexemes.reverse ++ before)

namespace Lexes

variable {chars others : List Char} {lexemes next : List Lexeme} {c : Char} {lexeme : Lexeme}

theorem nil : Lexes [] [] := fun before => ⟨_, rfl, .between before⟩

theorem of_run (h : ∀ before, run? ⟨before, .between⟩ chars = some ⟨lexeme :: before, .between⟩) :
    Lexes chars [lexeme] :=
  fun before => ⟨_, h before, .between _⟩

/-- Bare characters that form a word are one lexeme. -/
theorem of_bare (hbare : ∀ c ∈ chars, isBare c = true) (hword : ofBare? chars = some lexeme) :
    Lexes chars [lexeme] := by
  intro before
  cases chars with
  | nil => cases hword
  | cons c rest =>
    obtain ⟨hc, hrest⟩ := List.forall_mem_cons.mp hbare
    have hstart : start? before c = some ⟨before, .bare [c]⟩ := by
      have hgap : isGap c = false := by
        rw [Bool.eq_false_iff]
        intro hgap
        simp only [isGap, Bool.or_eq_true, beq_iff_eq] at hgap
        rcases hgap with ((rfl | rfl) | rfl) | rfl <;> cases hc
      have hquote : c ≠ '"' := by
        rintro rfl
        cases hc
      simp [start?, hgap, hquote, hc]
    refine ⟨⟨before, .bare (rest.reverse ++ [c])⟩, ?_, .bare ?_⟩
    · rw [run?, step?, hstart, Option.bind_some, run?_bare before [c] rest hrest]
    · simpa using hword

/-- Punctuation in front is one lexeme more. -/
theorem cons (hc : ofPunctuation? c = some lexeme) (h : Lexes chars lexemes) :
    Lexes (c :: chars) (lexeme :: lexemes) := by
  intro before
  obtain ⟨p, hrun, hsettled⟩ := h (lexeme :: before)
  refine ⟨p, ?_, ?_⟩
  · rw [run?, step?, (start?_punctuation hc before).2, Option.bind_some, hrun]
  · simpa using hsettled

/-- Punctuation behind finishes the lexemes in front. -/
theorem append (h : Lexes chars lexemes) (hc : ofPunctuation? c = some lexeme)
    (hothers : Lexes others next) : Lexes (chars ++ c :: others) (lexemes ++ lexeme :: next) := by
  intro before
  obtain ⟨p, hrun, hsettled⟩ := h before
  obtain ⟨last, hrest, hlast⟩ := hothers (lexeme :: (lexemes.reverse ++ before))
  refine ⟨last, ?_, ?_⟩
  · rw [run?_append, hrun, Option.bind_some, run?, hsettled.step? hc, Option.bind_some, hrest]
  · simpa using hlast

theorem scan? (h : Lexes chars lexemes) : Lexeme.scan? chars = some lexemes := by
  obtain ⟨p, hrun, hsettled⟩ := h []
  rw [Lexeme.scan?, hrun, Option.bind_some, hsettled.finish?]
  simp

end Lexes

theorem lexes_quoted {escape : Char → List Char} (h : Escapes escape) (text : List Char) :
    ∃ units, TextUnit.text? units = some (String.ofList text) ∧
      Lexes ('"' :: text.flatMap escape ++ ['"']) [.string units] := by
  obtain ⟨units, htext, hrun⟩ := h.run?_quoted text
  exact ⟨units, htext, .of_run hrun⟩

end Lexeme

/-! ## Forms -/

namespace Form

open Lexeme (Lexes Escapes)

/-- The lexemes make up a form where a value may stand, also as the first element of an array. -/
def Parses (lexemes : List Lexeme) (form : Form) : Prop :=
  ∀ stack rest,
    run? TextUnit.text? ⟨stack, .value⟩ (lexemes ++ rest)
      = run? TextUnit.text? ⟨stack, .separator form⟩ rest ∧
    run? TextUnit.text? ⟨stack, .element⟩ (lexemes ++ rest)
      = run? TextUnit.text? ⟨stack, .separator form⟩ rest

theorem parses_of_lexeme {lexeme : Lexeme} {form : Form}
    (h : ofLexeme? TextUnit.text? lexeme = some form) : Parses [lexeme] form := by
  intro stack rest
  cases lexeme <;> simp [ofLexeme?] at h <;> subst h <;> exact ⟨rfl, rfl⟩

/-- A text of one line that is read as a form wherever a value may stand. -/
structure Line (chars : List Char) (form : Form) : Prop where
  /-- There are no control characters in it. -/
  plain : ∀ c ∈ chars, 0x20 ≤ c.toNat
  lexed : ∃ lexemes, Lexes chars lexemes ∧ Parses lexemes form

/-- A member of an object: a text of one line with its name, a colon and its value. -/
structure MemberLine (chars : List Char) (member : Option String × Form) : Prop where
  plain : ∀ c ∈ chars, 0x20 ≤ c.toNat
  lexed : ∃ units lexemes, Lexes chars (.string units :: .colon :: lexemes) ∧
    TextUnit.text? units = member.1 ∧ Parses lexemes member.2

namespace Line

variable {chars : List Char} {form : Form}

/-- A line is read as its form. -/
theorem parse? (h : Line chars form) : Form.parse? TextUnit.text? chars = some form := by
  obtain ⟨lexemes, hlexes, hparses⟩ := h.lexed
  have hrun := (hparses [] []).1
  rw [List.append_nil] at hrun
  simp [Form.parse?, hlexes.scan?, hrun, Form.run?]

theorem ofText? (h : Line chars form) : Form.ofText? (String.ofList chars) = some form := by
  rw [Form.ofText?, String.toList_ofList, h.parse?]

theorem newline_notMem (h : Line chars form) : '\n' ∉ chars :=
  fun hmem => absurd (h.plain _ hmem) (by decide)

/-- A word is a line. -/
theorem of_bare {lexeme : Lexeme} (hbare : ∀ c ∈ chars, Lexeme.isBare c = true)
    (hword : Lexeme.ofBare? chars = some lexeme)
    (hform : ofLexeme? TextUnit.text? lexeme = some form) : Line chars form where
  plain := by
    intro c hc
    have hcode := hbare c hc
    simp only [Lexeme.isBare, Bool.or_eq_true, beq_iff_eq] at hcode
    rcases hcode with ((halphanum | rfl) | rfl) | rfl
    · exact le_trans (by decide) (Text.toNat_of_isAlphanum halphanum).1
    · decide
    · decide
    · decide
  lexed := ⟨[lexeme], .of_bare hbare hword, parses_of_lexeme hform⟩

end Line

/-- What is written for a character in a string holds no control characters. -/
def Plain (escape : Char → List Char) : Prop := ∀ c, ∀ d ∈ escape c, 0x20 ≤ d.toNat

theorem plain_quoted {escape : Char → List Char} (h : Plain escape) (text : List Char) :
    ∀ c ∈ '"' :: text.flatMap escape ++ ['"'], 0x20 ≤ c.toNat := by
  intro c hc
  simp only [List.cons_append, List.mem_cons, List.mem_append, List.mem_flatMap, List.not_mem_nil,
    or_false] at hc
  rcases hc with rfl | ⟨d, -, hd⟩ | rfl
  · decide
  · exact h d c hd
  · decide

/-- A quoted text is a line. -/
theorem line_quoted {escape : Char → List Char} (h : Escapes escape) (hplain : Plain escape)
    (text : String) :
    Line ('"' :: text.toList.flatMap escape ++ ['"']) (.string (some text)) := by
  obtain ⟨units, htext, hlexes⟩ := Lexeme.lexes_quoted h text.toList
  rw [String.ofList_toList] at htext
  exact ⟨plain_quoted hplain _, _, hlexes, parses_of_lexeme (by rw [ofLexeme?, htext])⟩

/-- A quoted name, a colon and a line are a member. -/
theorem Line.member {escape : Char → List Char} (h : Escapes escape) (hplain : Plain escape)
    (name : String) {chars : List Char} {form : Form} (hline : Line chars form) :
    MemberLine ('"' :: name.toList.flatMap escape ++ ['"'] ++ ':' :: chars) (some name, form) where
  plain := by
    intro c hc
    rcases List.mem_append.mp hc with hc | hc
    · exact plain_quoted hplain _ c hc
    · rcases List.mem_cons.mp hc with rfl | hc
      · decide
      · exact hline.plain c hc
  lexed := by
    obtain ⟨units, htext, hlexes⟩ := Lexeme.lexes_quoted h name.toList
    rw [String.ofList_toList] at htext
    obtain ⟨lexemes, hvalue, hparses⟩ := hline.lexed
    exact ⟨units, lexemes, hlexes.append rfl hvalue, htext, hparses⟩

/-! ## Containers -/

/-- Parts between brackets, with commas between them, hold no control characters if the parts hold
none. -/
theorem plain_between {opening closing : Char} (hopening : 0x20 ≤ opening.toNat)
    (hclosing : 0x20 ≤ closing.toNat) {first : List Char} {parts : List (List Char)}
    (h : ∀ part ∈ first :: parts, ∀ c ∈ part, 0x20 ≤ c.toNat) :
    ∀ c ∈ opening :: first ++ (parts.flatMap (',' :: ·) ++ [closing]), 0x20 ≤ c.toNat := by
  obtain ⟨hfirst, hparts⟩ := List.forall_mem_cons.mp h
  intro c hc
  simp only [List.cons_append, List.mem_cons, List.mem_append, List.mem_flatMap, List.not_mem_nil,
    or_false] at hc
  rcases hc with rfl | hc | ⟨part, hpart, rfl | hc⟩ | rfl
  · exact hopening
  · exact hfirst c hc
  · decide
  · exact hparts part hpart c hc
  · exact hclosing

/-- The elements behind the first one, and the end of their array. -/
theorem lexed_elements {parts : List (List Char)} {forms : List Form}
    (h : List.Forall₂ Line parts forms) :
    ∃ c chars lexeme lexemes, parts.flatMap (',' :: ·) ++ [']'] = c :: chars ∧
      Lexeme.ofPunctuation? c = some lexeme ∧ Lexes chars lexemes ∧ ∀ stack elements first rest,
        run? TextUnit.text? ⟨.array elements :: stack, .separator first⟩ (lexeme :: lexemes ++ rest)
          = run? TextUnit.text? ⟨stack, .separator (array (elements.reverse ++ first :: forms))⟩
              rest := by
  induction h with
  | nil => exact ⟨']', [], .closeArray, [], rfl, rfl, .nil, fun _ _ _ _ => by simp [run?, step?]⟩
  | @cons part form parts forms hpart _ ih =>
    obtain ⟨c, chars, lexeme, lexemes, hchars, hc, hlexes, hrun⟩ := ih
    obtain ⟨own, hown, hparses⟩ := hpart.lexed
    refine ⟨',', part ++ c :: chars, .comma, own ++ lexeme :: lexemes, ?_, rfl, hown.append hc hlexes,
      fun stack elements first rest => ?_⟩
    · rw [List.flatMap_cons, List.append_assoc, hchars]
      rfl
    · have hvalue := (hparses (.array (first :: elements) :: stack) (lexeme :: lexemes ++ rest)).1
      rw [hrun] at hvalue
      simp only [List.cons_append, List.append_assoc, run?, step?, Option.bind_some] at hvalue ⊢
      rw [hvalue]
      simp

/-- The members behind the first one, and the end of their object. -/
theorem lexed_members {parts : List (List Char)} {members : List (Option String × Form)}
    (h : List.Forall₂ MemberLine parts members) :
    ∃ c chars lexeme lexemes, parts.flatMap (',' :: ·) ++ ['\x7d'] = c :: chars ∧
      Lexeme.ofPunctuation? c = some lexeme ∧ Lexes chars lexemes ∧ ∀ stack done name first rest,
        run? TextUnit.text? ⟨.object done name :: stack, .separator first⟩
            (lexeme :: lexemes ++ rest)
          = run? TextUnit.text?
              ⟨stack, .separator (object (done.reverse ++ (name, first) :: members))⟩ rest := by
  induction h with
  | nil => exact ⟨'\x7d', [], .closeObject, [], rfl, rfl, .nil, fun _ _ _ _ _ => by simp [run?, step?]⟩
  | @cons part member parts members hpart _ ih =>
    obtain ⟨c, chars, lexeme, lexemes, hchars, hc, hlexes, hrun⟩ := ih
    obtain ⟨units, own, hown, htext, hparses⟩ := hpart.lexed
    refine ⟨',', part ++ c :: chars, .comma, .string units :: .colon :: own ++ lexeme :: lexemes, ?_,
      rfl, hown.append hc hlexes, fun stack done name first rest => ?_⟩
    · rw [List.flatMap_cons, List.append_assoc, hchars]
      rfl
    · have hvalue := (hparses (.object ((name, first) :: done) member.1 :: stack)
        (lexeme :: lexemes ++ rest)).1
      rw [hrun] at hvalue
      simp only [List.cons_append, List.append_assoc, run?, step?, Option.bind_some, htext] at hvalue ⊢
      rw [hvalue]
      simp

namespace Line

theorem object_nil : Line ['\x7b', '\x7d'] (.object []) where
  plain := by simp
  lexed := ⟨[.openObject, .closeObject], .cons rfl (.cons rfl .nil), fun _ _ => ⟨rfl, rfl⟩⟩

theorem array_nil : Line ['[', ']'] (.array []) where
  plain := by simp
  lexed := ⟨[.openArray, .closeArray], .cons rfl (.cons rfl .nil), fun _ _ => ⟨rfl, rfl⟩⟩

/-- **Members between braces, with commas between them, are an object.** -/
theorem object {first : List Char} {member : Option String × Form} {parts : List (List Char)}
    {members : List (Option String × Form)} (hfirst : MemberLine first member)
    (hrest : List.Forall₂ MemberLine parts members) :
    Line ('\x7b' :: first ++ (parts.flatMap (',' :: ·) ++ ['\x7d'])) (.object (member :: members)) where
  plain := by
    have hparts := (List.forall₂_and_left _ _).mp (hrest.imp fun _ _ h => ⟨h.plain, h⟩)
    exact plain_between (by decide) (by decide) (List.forall_mem_cons.mpr ⟨hfirst.plain, hparts.1⟩)
  lexed := by
    obtain ⟨c, chars, lexeme, lexemes, hchars, hc, hlexes, hrun⟩ := lexed_members hrest
    obtain ⟨units, own, hown, htext, hparses⟩ := hfirst.lexed
    refine ⟨.openObject :: (.string units :: .colon :: own ++ lexeme :: lexemes), ?_,
      fun stack rest => ?_⟩
    · rw [hchars]
      exact .cons rfl (hown.append hc hlexes)
    · have hvalue := (hparses (.object [] member.1 :: stack) (lexeme :: lexemes ++ rest)).1
      rw [hrun] at hvalue
      simp only [List.cons_append, List.append_assoc, run?, step?, startValue?, Option.bind_some,
        htext] at hvalue ⊢
      exact ⟨hvalue, hvalue⟩

/-- **Lines between brackets, with commas between them, are an array.** -/
theorem array {first : List Char} {form : Form} {parts : List (List Char)} {forms : List Form}
    (hfirst : Line first form) (hrest : List.Forall₂ Line parts forms) :
    Line ('[' :: first ++ (parts.flatMap (',' :: ·) ++ [']'])) (.array (form :: forms)) where
  plain := by
    have hparts := (List.forall₂_and_left _ _).mp (hrest.imp fun _ _ h => ⟨h.plain, h⟩)
    exact plain_between (by decide) (by decide) (List.forall_mem_cons.mpr ⟨hfirst.plain, hparts.1⟩)
  lexed := by
    obtain ⟨c, chars, lexeme, lexemes, hchars, hc, hlexes, hrun⟩ := lexed_elements hrest
    obtain ⟨own, hown, hparses⟩ := hfirst.lexed
    refine ⟨.openArray :: (own ++ lexeme :: lexemes), ?_, fun stack rest => ?_⟩
    · rw [hchars]
      exact .cons rfl (hown.append hc hlexes)
    · have hvalue := (hparses (.array [] :: stack) (lexeme :: lexemes ++ rest)).2
      rw [hrun] at hvalue
      simp only [List.cons_append, List.append_assoc, run?, step?, startValue?, Option.bind_some]
        at hvalue ⊢
      exact ⟨hvalue, hvalue⟩

end Line

/-! ## Printed values -/

mutual

/-- The form that the text of a value has. A number stands for what its own text is read as. -/
def printed : Json → Form
  | .null => null
  | .bool b => bool b
  | .number n => number ((NumberLiteral.ofChars? n.text).bind (·.number?))
  | .string s => string (some s)
  | .array elements => array (printedElements elements)
  | .object members => object (printedMembers members)

/-- The forms of the texts of elements. -/
def printedElements : List Json → List Form
  | [] => []
  | x :: rest => printed x :: printedElements rest

/-- The forms of the texts of members. -/
def printedMembers : List (String × Json) → List (Option String × Form)
  | [] => []
  | (name, x) :: rest => (some name, printed x) :: printedMembers rest

end

theorem printedMembers_eq_map (members : List (String × Json)) :
    printedMembers members = members.map fun member => (some member.1, printed member.2) := by
  induction members with
  | nil => rfl
  | cons member rest ih => rw [printedMembers, ih, List.map_cons]

theorem elementChars_eq (elements : List Json) :
    elementChars elements = (elements.map chars).flatMap (',' :: ·) := by
  induction elements with
  | nil => rfl
  | cons x rest ih => simp [elementChars, ih]

theorem memberChars_eq (members : List (String × Json)) :
    memberChars members
      = (members.map fun member => quote member.1.toList ++ ':' :: member.2.chars).flatMap
          (',' :: ·) := by
  induction members with
  | nil => rfl
  | cons member rest ih => simp [memberChars, ih]

theorem toNat_digitChar {d : Nat} (h : d < 16) : 0x20 ≤ (Nat.digitChar d).toNat := by
  have hall : ∀ d ∈ List.range 16, 0x20 ≤ (Nat.digitChar d).toNat := by decide
  exact hall d (List.mem_range.mpr h)

theorem plain_escapeChar : Plain escapeChar := by
  intro c d hd
  unfold escapeChar at hd
  split_ifs at hd with hquote hslash hback htab hline hfeed hreturn hcontrol <;>
    simp only [List.mem_cons, List.not_mem_nil, or_false] at hd
  · rcases hd with rfl | rfl <;> decide
  · rcases hd with rfl | rfl <;> decide
  · rcases hd with rfl | rfl <;> decide
  · rcases hd with rfl | rfl <;> decide
  · rcases hd with rfl | rfl <;> decide
  · rcases hd with rfl | rfl <;> decide
  · rcases hd with rfl | rfl <;> decide
  · rcases hd with rfl | rfl | rfl | rfl | rfl | rfl
    · decide
    · decide
    · decide
    · decide
    · exact toNat_digitChar (by omega)
    · exact toNat_digitChar (by omega)
  · subst hd
    omega

theorem line_number (n : Number) : Line n.text (printed (.number n)) := by
  obtain ⟨hbare, literal, hliteral⟩ := n.numeral_text
  have hword : Lexeme.ofBare? n.text = some (.number literal) := by
    -- None of the three words is a number literal.
    have hne : ∀ word, NumberLiteral.ofChars? word = none → n.text ≠ word := by
      rintro word hnone rfl
      rw [hliteral] at hnone
      cases hnone
    rw [Lexeme.ofBare?, if_neg (hne _ rfl), if_neg (hne _ rfl), if_neg (hne _ rfl), hliteral]
    rfl
  exact .of_bare hbare hword (by rw [printed, hliteral]; rfl)

mutual

/-- The text of a value is a line that is read as the form of the value. -/
theorem line_chars : (value : Json) → Line value.chars (printed value)
  | .null => .of_bare (List.all_eq_true.mp rfl) rfl rfl
  | .bool true => .of_bare (List.all_eq_true.mp rfl) rfl rfl
  | .bool false => .of_bare (List.all_eq_true.mp rfl) rfl rfl
  | .number n => line_number n
  | .string s => line_quoted Lexeme.escapes_escapeChar plain_escapeChar s
  | .array [] => .array_nil
  | .array (x :: rest) => by
    have harray := Line.array (line_chars x) (line_elements rest)
    rw [← elementChars_eq, ← List.append_assoc] at harray
    exact harray
  | .object [] => .object_nil
  | .object ((name, x) :: rest) => by
    have hmember := (line_chars x).member Lexeme.escapes_escapeChar plain_escapeChar name
    have hobject := Line.object hmember (line_members rest)
    rw [← memberChars_eq, ← List.append_assoc] at hobject
    exact hobject

theorem line_elements : (elements : List Json) →
    List.Forall₂ Line (elements.map chars) (printedElements elements)
  | [] => .nil
  | x :: rest => .cons (line_chars x) (line_elements rest)

theorem line_members : (members : List (String × Json)) →
    List.Forall₂ MemberLine
      (members.map fun member => quote member.1.toList ++ ':' :: member.2.chars)
      (printedMembers members)
  | [] => .nil
  | (name, x) :: rest =>
    .cons ((line_chars x).member Lexeme.escapes_escapeChar plain_escapeChar name)
      (line_members rest)

end

/-- **The compact text of a value is read as the form of the value.** -/
theorem ofText?_compact (value : Json) : ofText? value.compact = some (printed value) :=
  (line_chars value).ofText?

/-- The compact text of a value is one line. -/
theorem newline_notMem_compact (value : Json) : '\n' ∉ value.compact.toList := by
  rw [compact, String.toList_ofList]
  exact (line_chars value).newline_notMem

end Form

end DerivedQuery.Json
