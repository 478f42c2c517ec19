import DerivedQuery.Proofs.Method.Clauses

/-!
# Where words stand in a name

A text has a word if the word stands somewhere in it and ends where a new word starts (`HasWord`). The
scans of a parser find the first or the last such place, and a marker the first place at all where it
stands (`splitFirst?_eq_some_iff`, `splitLast?_eq_some_iff`, `behindMarker?_eq_some_iff`). So the subject of
a name is what stands between the verb and the first `By` before the last `OrderBy` (`isSubject_iff`).

What is put behind a text adds no place of a word from which it is `Apart`, and takes none away.
-/

namespace DerivedQuery.Method

variable {word marker text ending before after rest : List Char}

/-! ## Places -/

/-- The word stands in the text, with this before it and this behind it. -/
def Occurs (word text before rest : List Char) : Prop := text = before ++ (word ++ rest)

/-- The word stands there and ends where a new word starts. -/
def OccursAsWord (word text before rest : List Char) : Prop :=
  Occurs word text before rest ∧ startsWord rest

/-- The text has the word. -/
def HasWord (word text : List Char) : Prop := ∃ before rest, OccursAsWord word text before rest

/-- The first of all places. -/
def IsFirst (places : List Char → List Char → Prop) (before rest : List Char) : Prop :=
  places before rest ∧ ∀ other behind, places other behind → before.length ≤ other.length

/-- The last of all places. -/
def IsLast (places : List Char → List Char → Prop) (before rest : List Char) : Prop :=
  places before rest ∧ ∀ other behind, places other behind → other.length ≤ before.length

/-- A place is told by what is before it. -/
theorem Occurs.unique {other behind : List Char} (h : Occurs word text before rest)
    (h' : Occurs word text other behind) (hlength : before.length = other.length) :
    before = other ∧ rest = behind := by
  obtain ⟨hbefore, hword⟩ := List.append_inj (h.symm.trans h') hlength
  exact ⟨hbefore, List.append_cancel_left hword⟩

theorem occurs_cons_iff {c : Char} :
    Occurs word (c :: text) before rest ↔
      before = [] ∧ c :: text = word ++ rest ∨
        ∃ tail, before = c :: tail ∧ Occurs word text tail rest := by
  unfold Occurs
  cases before with
  | nil => simp
  | cons d tail => simp [eq_comm]

theorem occursAsWord_cons_iff {c : Char} :
    OccursAsWord word (c :: text) before rest ↔
      before = [] ∧ behind? word (c :: text) = some rest ∨
        ∃ tail, before = c :: tail ∧ OccursAsWord word text tail rest := by
  cases before with
  | nil => simp [OccursAsWord, Occurs, behind?_eq_some_iff]
  | cons d tail => simp [OccursAsWord, occurs_cons_iff, and_assoc]

theorem not_hasWord_nil (hword : word ≠ []) : ¬ HasWord word [] := by
  rintro ⟨before, rest, hnil, -⟩
  exact hword (List.append_eq_nil_iff.mp (List.append_eq_nil_iff.mp hnil.symm).2).1

theorem hasWord_cons_iff {c : Char} :
    HasWord word (c :: text) ↔ (behind? word (c :: text)).isSome ∨ HasWord word text := by
  simp only [HasWord, occursAsWord_cons_iff, Option.isSome_iff_exists]
  constructor
  · rintro ⟨before, rest, ⟨-, hbehind⟩ | ⟨tail, -, hword⟩⟩
    · exact .inl ⟨rest, hbehind⟩
    · exact .inr ⟨tail, rest, hword⟩
  · rintro (⟨rest, hbehind⟩ | ⟨tail, rest, hword⟩)
    · exact ⟨[], rest, .inl ⟨rfl, hbehind⟩⟩
    · exact ⟨c :: tail, rest, .inr ⟨tail, rfl, hword⟩⟩

/-- A word does not start with another letter than its own. -/
theorem hasWord_cons_of_ne {c d : Char} (h : c ≠ d) :
    HasWord (c :: word) (d :: text) ↔ HasWord (c :: word) text := by
  rw [hasWord_cons_iff, or_iff_right]
  intro hsome
  obtain ⟨rest, hrest⟩ := Option.isSome_iff_exists.mp hsome
  exact h (List.cons_eq_cons.mp (behind?_eq_some_iff.mp hrest).1).1.symm

/-! ## The first place of a word -/

theorem isFirst_of_splitFirst? (h : splitFirst? word text = some (before, rest)) :
    IsFirst (OccursAsWord word text) before rest := by
  induction text generalizing before with
  | nil => cases h
  | cons c text ih =>
    rw [splitFirst?] at h
    cases hbehind : behind? word (c :: text) with
    | some found =>
      rw [hbehind] at h
      cases h
      exact ⟨occursAsWord_cons_iff.mpr (.inl ⟨rfl, hbehind⟩), fun _ _ _ => Nat.zero_le _⟩
    | none =>
      rw [hbehind] at h
      obtain ⟨⟨tail, _⟩, htail, ⟨⟩⟩ := Option.map_eq_some_iff.mp h
      obtain ⟨hplace, hfirst⟩ := ih htail
      refine ⟨occursAsWord_cons_iff.mpr (.inr ⟨tail, rfl, hplace⟩), fun other behind hother => ?_⟩
      rcases occursAsWord_cons_iff.mp hother with ⟨-, hfound⟩ | ⟨inner, rfl, hinner⟩
      · cases hbehind.symm.trans hfound
      · exact Nat.succ_le_succ (hfirst inner behind hinner)

theorem splitFirst?_eq_none_iff (hword : word ≠ []) :
    splitFirst? word text = none ↔ ¬ HasWord word text := by
  induction text with
  | nil => exact iff_of_true rfl (not_hasWord_nil hword)
  | cons c text ih =>
    rw [splitFirst?, hasWord_cons_iff, not_or, ← ih]
    cases behind? word (c :: text) with
    | some found => simp
    | none => simp

theorem splitFirst?_eq_some_iff (hword : word ≠ []) :
    splitFirst? word text = some (before, rest) ↔ IsFirst (OccursAsWord word text) before rest := by
  refine ⟨isFirst_of_splitFirst?, fun ⟨hplace, hfirst⟩ => ?_⟩
  have hsome : splitFirst? word text ≠ none := fun hnone =>
    (splitFirst?_eq_none_iff hword).mp hnone ⟨before, rest, hplace⟩
  obtain ⟨⟨other, behind⟩, hfound⟩ := Option.ne_none_iff_exists'.mp hsome
  obtain ⟨hplace', hfirst'⟩ := isFirst_of_splitFirst? hfound
  have hlength := Nat.le_antisymm (hfirst _ _ hplace') (hfirst' _ _ hplace)
  obtain ⟨rfl, rfl⟩ := hplace.1.unique hplace'.1 hlength
  exact hfound

/-- What is before the first place of a word does not have the word. -/
theorem IsFirst.not_hasWord (h : IsFirst (OccursAsWord word text) before rest) (hword : word ≠ [])
    (hstarts : startsWord (word ++ rest)) : ¬ HasWord word before := by
  rintro ⟨other, behind, rfl, hbehind⟩
  obtain ⟨⟨htext, -⟩, hfirst⟩ := h
  have hplace : OccursAsWord word text other (behind ++ (word ++ rest)) := by
    refine ⟨?_, ?_⟩
    · rw [Occurs, htext, List.append_assoc, List.append_assoc]
    · cases behind with
      | nil => exact hstarts
      | cons c behind => exact hbehind
  have hlength := hfirst _ _ hplace
  have hpos := List.length_pos_iff.mpr hword
  rw [List.length_append, List.length_append] at hlength
  omega

/-! ## The last place of a word -/

theorem splitLast?_eq_none_iff (hword : word ≠ []) :
    splitLast? word text = none ↔ ¬ HasWord word text := by
  induction text with
  | nil => exact iff_of_true rfl (not_hasWord_nil hword)
  | cons c text ih =>
    rw [splitLast?, hasWord_cons_iff, not_or, ← ih]
    cases splitLast? word text with
    | some found => simp
    | none => simp

theorem isLast_of_splitLast? (hword : word ≠ [])
    (h : splitLast? word text = some (before, rest)) :
    IsLast (OccursAsWord word text) before rest := by
  induction text generalizing before with
  | nil => cases h
  | cons c text ih =>
    rw [splitLast?] at h
    cases hlater : splitLast? word text with
    | some found =>
      rw [hlater] at h
      cases h
      obtain ⟨hplace, hlast⟩ := ih hlater
      refine ⟨occursAsWord_cons_iff.mpr (.inr ⟨_, rfl, hplace⟩), fun other behind hother => ?_⟩
      rcases occursAsWord_cons_iff.mp hother with ⟨rfl, -⟩ | ⟨inner, rfl, hinner⟩
      · exact Nat.zero_le _
      · exact Nat.succ_le_succ (hlast inner behind hinner)
    | none =>
      rw [hlater] at h
      obtain ⟨_, hbehind, ⟨⟩⟩ := Option.map_eq_some_iff.mp h
      refine ⟨occursAsWord_cons_iff.mpr (.inl ⟨rfl, hbehind⟩), fun other behind hother => ?_⟩
      rcases occursAsWord_cons_iff.mp hother with ⟨rfl, -⟩ | ⟨inner, -, hinner⟩
      · exact Nat.le_refl _
      · exact absurd ⟨inner, behind, hinner⟩ ((splitLast?_eq_none_iff hword).mp hlater)

theorem splitLast?_eq_some_iff (hword : word ≠ []) :
    splitLast? word text = some (before, rest) ↔ IsLast (OccursAsWord word text) before rest := by
  refine ⟨isLast_of_splitLast? hword, fun ⟨hplace, hlast⟩ => ?_⟩
  have hsome : splitLast? word text ≠ none := fun hnone =>
    (splitLast?_eq_none_iff hword).mp hnone ⟨before, rest, hplace⟩
  obtain ⟨⟨other, behind⟩, hfound⟩ := Option.ne_none_iff_exists'.mp hsome
  obtain ⟨hplace', hlast'⟩ := isLast_of_splitLast? hword hfound
  have hlength := Nat.le_antisymm (hlast' _ _ hplace) (hlast _ _ hplace')
  obtain ⟨rfl, rfl⟩ := hplace.1.unique hplace'.1 hlength
  exact hfound

/-! ## Markers -/

theorem behindMarker?_eq_none_iff (hmarker : marker ≠ []) :
    behindMarker? marker text = none ↔ ¬ ∃ before after, Occurs marker text before after := by
  induction text with
  | nil =>
    refine iff_of_true rfl ?_
    rintro ⟨before, after, hnil⟩
    exact hmarker (List.append_eq_nil_iff.mp (List.append_eq_nil_iff.mp hnil.symm).2).1
  | cons c text ih =>
    rw [behindMarker?]
    split
    · next hprefix =>
      obtain ⟨after, hafter⟩ := List.isPrefixOf_iff_prefix.mp hprefix
      exact iff_of_false (Option.some_ne_none _) (not_not_intro ⟨[], after, hafter.symm⟩)
    · next hprefix =>
      rw [ih]
      refine not_congr ⟨fun ⟨before, after, hplace⟩ => ?_, fun ⟨before, after, hplace⟩ => ?_⟩
      · exact ⟨c :: before, after, occurs_cons_iff.mpr (.inr ⟨before, rfl, hplace⟩)⟩
      · rcases occurs_cons_iff.mp hplace with ⟨-, htext⟩ | ⟨tail, -, htail⟩
        · exact absurd (List.isPrefixOf_iff_prefix.mpr ⟨after, htext.symm⟩) hprefix
        · exact ⟨tail, after, htail⟩

theorem isFirst_of_behindMarker? (h : behindMarker? marker text = some after) :
    ∃ before, IsFirst (Occurs marker text) before after := by
  induction text with
  | nil => cases h
  | cons c text ih =>
    rw [behindMarker?] at h
    split at h
    · next hprefix =>
      obtain ⟨behind, hbehind⟩ := List.isPrefixOf_iff_prefix.mp hprefix
      rw [← hbehind, List.drop_left] at h
      cases h
      exact ⟨[], hbehind.symm, fun _ _ _ => Nat.zero_le _⟩
    · next hprefix =>
      obtain ⟨tail, htail, hfirst⟩ := ih h
      refine ⟨c :: tail, occurs_cons_iff.mpr (.inr ⟨tail, rfl, htail⟩), fun other behind hother => ?_⟩
      rcases occurs_cons_iff.mp hother with ⟨-, htext⟩ | ⟨inner, rfl, hinner⟩
      · exact absurd (List.isPrefixOf_iff_prefix.mpr ⟨behind, htext.symm⟩) hprefix
      · exact Nat.succ_le_succ (hfirst inner behind hinner)

/-- A marker is found where it stands first, whole word or not. -/
theorem behindMarker?_eq_some_iff (hmarker : marker ≠ []) :
    behindMarker? marker text = some after ↔ ∃ before, IsFirst (Occurs marker text) before after := by
  refine ⟨isFirst_of_behindMarker?, fun ⟨before, hplace, hfirst⟩ => ?_⟩
  have hsome : behindMarker? marker text ≠ none := fun hnone =>
    (behindMarker?_eq_none_iff hmarker).mp hnone ⟨before, after, hplace⟩
  obtain ⟨behind, hfound⟩ := Option.ne_none_iff_exists'.mp hsome
  obtain ⟨other, hplace', hfirst'⟩ := isFirst_of_behindMarker? hfound
  have hlength := Nat.le_antisymm (hfirst _ _ hplace') (hfirst' _ _ hplace)
  obtain ⟨-, rfl⟩ := hplace.unique hplace' hlength
  exact hfound

/-! ## Endings apart from a word -/

/-- The word does not stand in the ending, and none of it can stand there behind a text. -/
structure Apart (word ending : List Char) : Prop where
  absent : ¬ word <:+: ending
  head : ∀ c ∈ ending.head?, c ∉ word

theorem startsWord_append_ending (hstarts : startsWord ending) :
    startsWord (text ++ ending) = startsWord text := by
  cases text with
  | nil => exact hstarts
  | cons c text => rfl

/-- Where all places are places before the ending, the first one is. -/
theorem isFirst_append_iff {places places' : List Char → List Char → Prop}
    (h : ∀ before rest, places' before rest ↔ ∃ tail, rest = tail ++ ending ∧ places before tail) :
    IsFirst places' before rest ↔ ∃ tail, rest = tail ++ ending ∧ IsFirst places before tail := by
  constructor
  · rintro ⟨hplace, hfirst⟩
    obtain ⟨tail, rfl, hbefore⟩ := (h before rest).mp hplace
    exact ⟨tail, rfl, hbefore, fun other behind hother =>
      hfirst other _ ((h other _).mpr ⟨behind, rfl, hother⟩)⟩
  · rintro ⟨tail, rfl, hplace, hfirst⟩
    refine ⟨(h before _).mpr ⟨tail, rfl, hplace⟩, fun other behind hother => ?_⟩
    obtain ⟨tail', -, hother⟩ := (h other behind).mp hother
    exact hfirst other tail' hother

namespace Apart

theorem occurs_append_iff (h : Apart word ending) :
    Occurs word (text ++ ending) before rest ↔
      ∃ tail, rest = tail ++ ending ∧ Occurs word text before tail := by
  constructor
  · intro hplace
    rcases List.append_eq_append_iff.mp hplace with ⟨skipped, -, hending⟩ | ⟨tail, rfl, hword⟩
    · exact absurd ⟨skipped, rest, by rw [hending, List.append_assoc]⟩ h.absent
    rcases List.append_eq_append_iff.mp hword with ⟨behind, rfl, hrest⟩ | ⟨overhang, hover, hending⟩
    · exact ⟨behind, hrest, rfl⟩
    -- The word would reach over the end of the text, so the ending would start with a letter of it.
    cases overhang with
    | nil =>
      rw [List.append_nil] at hover
      rw [List.nil_append] at hending
      exact ⟨[], hending.symm, by rw [Occurs, hover, List.append_nil]⟩
    | cons c overhang =>
      refine absurd ?_ (h.head c (by rw [hending]; rfl))
      rw [hover]
      exact List.mem_append_right tail List.mem_cons_self
  · rintro ⟨tail, rfl, rfl⟩
    rw [Occurs, List.append_assoc, List.append_assoc]

theorem occursAsWord_append_iff (h : Apart word ending) (hstarts : startsWord ending) :
    OccursAsWord word (text ++ ending) before rest ↔
      ∃ tail, rest = tail ++ ending ∧ OccursAsWord word text before tail := by
  unfold OccursAsWord
  rw [h.occurs_append_iff]
  constructor
  · rintro ⟨⟨tail, rfl, hplace⟩, hword⟩
    rw [startsWord_append_ending hstarts] at hword
    exact ⟨tail, rfl, hplace, hword⟩
  · rintro ⟨tail, rfl, hplace, hword⟩
    rw [startsWord_append_ending hstarts]
    exact ⟨⟨tail, rfl, hplace⟩, hword⟩

theorem hasWord_append_iff (h : Apart word ending) (hstarts : startsWord ending) :
    HasWord word (text ++ ending) ↔ HasWord word text := by
  simp only [HasWord, h.occursAsWord_append_iff hstarts]
  constructor
  · rintro ⟨before, -, tail, -, hplace⟩
    exact ⟨before, tail, hplace⟩
  · rintro ⟨before, tail, hplace⟩
    exact ⟨before, _, tail, rfl, hplace⟩

theorem splitFirst?_append (h : Apart word ending) (hstarts : startsWord ending) (hword : word ≠ []) :
    splitFirst? word (text ++ ending) =
      (splitFirst? word text).map fun (before, rest) => (before, rest ++ ending) := by
  have hplaces : ∀ before rest, OccursAsWord word (text ++ ending) before rest ↔
      ∃ tail, rest = tail ++ ending ∧ OccursAsWord word text before tail :=
    fun _ _ => h.occursAsWord_append_iff hstarts
  refine Option.ext fun ⟨before, rest⟩ => ?_
  rw [splitFirst?_eq_some_iff hword, Option.map_eq_some_iff, isFirst_append_iff hplaces]
  simp only [← splitFirst?_eq_some_iff hword, Prod.exists, Prod.mk.injEq]
  constructor
  · rintro ⟨tail, rfl, hfound⟩
    exact ⟨before, tail, hfound, rfl, rfl⟩
  · rintro ⟨_, tail, hfound, rfl, rfl⟩
    exact ⟨tail, rfl, hfound⟩

theorem behindMarker?_append (h : Apart marker ending) (hmarker : marker ≠ []) :
    behindMarker? marker (text ++ ending) = (behindMarker? marker text).map (· ++ ending) := by
  have hplaces : ∀ before rest, Occurs marker (text ++ ending) before rest ↔
      ∃ tail, rest = tail ++ ending ∧ Occurs marker text before tail :=
    fun _ _ => h.occurs_append_iff
  refine Option.ext fun after => ?_
  rw [behindMarker?_eq_some_iff hmarker, Option.map_eq_some_iff]
  simp only [isFirst_append_iff hplaces, behindMarker?_eq_some_iff hmarker]
  constructor
  · rintro ⟨before, tail, rfl, hfirst⟩
    exact ⟨tail, ⟨before, hfirst⟩, rfl⟩
  · rintro ⟨tail, ⟨before, hfirst⟩, rfl⟩
    exact ⟨before, tail, rfl, hfirst⟩

end Apart

/-! ## Subjects -/

/-- What stands between the verb and the first `By` of the part before the last `OrderBy`. Where one of
these words is missing, the part goes on to its end. -/
def IsSubject (text subject : List Char) : Prop :=
  ∃ head, (¬ HasWord "OrderBy".toList text ∧ head = text ∨
      ∃ order, IsLast (OccursAsWord "OrderBy".toList text) head order) ∧
    (¬ HasWord "By".toList head ∧ subject = head ∨
      ∃ criteria, IsFirst (OccursAsWord "By".toList head) subject criteria)

theorem clauses_eq_cutCriteria (text : List Char) :
    clauses text =
      match splitLast? "OrderBy".toList text with
      | some (head, order) => cutCriteria head (some order)
      | none => cutCriteria text none := by
  unfold clauses
  cases splitLast? "OrderBy".toList text with
  | some found => rfl
  | none => rfl

theorem clauses_of_lacks (h : ¬ HasWord "OrderBy".toList text) :
    clauses text = cutCriteria text none := by
  rw [clauses_eq_cutCriteria, (splitLast?_eq_none_iff (by decide)).mpr h]

/-- `By` is no part of an `OrderBy` behind it. -/
theorem lacks_orderBy_by (h : ¬ HasWord "OrderBy".toList text) :
    ¬ HasWord "OrderBy".toList ("By".toList ++ text) := by
  have hword : "OrderBy".toList = 'O' :: "rderBy".toList := by decide
  change ¬ HasWord "OrderBy".toList ('B' :: 'y' :: text)
  rwa [hword, hasWord_cons_of_ne (by decide), hasWord_cons_of_ne (by decide), ← hword]

theorem clauses_by (hstarts : startsWord text) (h : ¬ HasWord "OrderBy".toList text) :
    clauses ("By".toList ++ text) = ([], some text, none) := by
  have hfirst : splitFirst? "By".toList ("By".toList ++ text) = some ([], text) :=
    (splitFirst?_eq_some_iff (by decide)).mpr ⟨⟨rfl, hstarts⟩, fun _ _ _ => Nat.zero_le _⟩
  rw [clauses_of_lacks (lacks_orderBy_by h), cutCriteria, hfirst]

theorem fst_cutCriteria_eq_iff {head subject : List Char} {order : Option (List Char)} :
    (cutCriteria head order).1 = subject ↔
      ¬ HasWord "By".toList head ∧ subject = head ∨
        ∃ criteria, IsFirst (OccursAsWord "By".toList head) subject criteria := by
  have hby : "By".toList ≠ [] := by decide
  simp only [← splitFirst?_eq_some_iff hby, ← splitFirst?_eq_none_iff hby, cutCriteria]
  cases splitFirst? "By".toList head with
  | none => simp [eq_comm]
  | some found => simp [Prod.ext_iff]

/-- A subject ends before the first `By`. -/
theorem IsSubject.not_hasWord_by {subject : List Char} (h : IsSubject text subject) :
    ¬ HasWord "By".toList subject := by
  obtain ⟨head, -, ⟨hnone, rfl⟩ | ⟨criteria, hfirst⟩⟩ := h
  · exact hnone
  · exact hfirst.not_hasWord (by decide) rfl

/-- The first clause of a text is its subject. -/
theorem isSubject_iff {subject : List Char} : IsSubject text subject ↔ (clauses text).1 = subject := by
  have horder : "OrderBy".toList ≠ [] := by decide
  unfold IsSubject
  rw [clauses_eq_cutCriteria]
  simp only [← splitLast?_eq_some_iff horder, ← splitLast?_eq_none_iff horder]
  cases splitLast? "OrderBy".toList text with
  | none =>
    constructor
    · rintro ⟨head, ⟨-, rfl⟩ | ⟨order, ⟨⟩⟩, hsubject⟩
      exact fst_cutCriteria_eq_iff.mpr hsubject
    · exact fun h => ⟨text, .inl ⟨rfl, rfl⟩, fst_cutCriteria_eq_iff.mp h⟩
  | some found =>
    constructor
    · rintro ⟨head, ⟨⟨⟩, -⟩ | ⟨order, ⟨⟩⟩, hsubject⟩
      exact fst_cutCriteria_eq_iff.mpr hsubject
    · exact fun h => ⟨found.1, .inr ⟨found.2, rfl⟩, fst_cutCriteria_eq_iff.mp h⟩

end DerivedQuery.Method
