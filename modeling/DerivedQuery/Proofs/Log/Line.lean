import Mathlib.Data.List.Nodup
import Mathlib.Data.String.Basic
import DerivedQuery.Proofs.Collection.Entries
import DerivedQuery.Proofs.Json.Reading
import DerivedQuery.Text.Lines

/-!
# Log lines cannot be forged

Whatever characters an event and its details have, a log line is one line, and reading it as JSON gives
the event, the severity and the details back as they were (`Log.line_reads_back`). The details stand in
order of their names, whatever order they were given in.
-/

namespace DerivedQuery.Log

open Json (Form)

/-! ## Text -/

theorem plain_escapeChar : Form.Plain escapeChar := by
  intro c d hd
  unfold escapeChar at hd
  split_ifs at hd with hquote hslash hline hreturn htab hcontrol
  · revert d; simp
  · revert d; simp
  · revert d; simp
  · revert d; simp
  · revert d; simp
  · have hlow := Json.Lexeme.toNat_lt_of_isControl hcontrol
    rw [Json.Lexeme.hexDigits_four hlow] at hd
    simp only [List.mem_cons, List.not_mem_nil, or_false] at hd
    rcases hd with rfl | rfl | rfl | rfl | rfl | rfl
    · decide
    · decide
    · decide
    · decide
    · exact Form.toNat_digitChar (by omega)
    · exact Form.toNat_digitChar (by omega)
  · obtain rfl := List.mem_singleton.mp hd
    simp [isControl] at hcontrol
    omega

/-- The form of a detail. -/
def memberForm (field : String × String) : Option String × Form :=
  (some field.1, .string (some field.2))

/-- A detail is a member with its name and its text. -/
theorem memberLine (field : String × String) :
    Form.MemberLine (member field.1 field.2) (memberForm field) :=
  (Form.line_quoted Json.Lexeme.escapes_log plain_escapeChar field.2).member Json.Lexeme.escapes_log
    plain_escapeChar field.1

theorem memberLines (fields : List (String × String)) :
    List.Forall₂ Form.MemberLine (fields.map fun field => member field.1 field.2)
      (fields.map memberForm) := by
  rw [List.forall₂_map_left_iff, List.forall₂_map_right_iff]
  exact List.forall₂_same.mpr fun field _ => memberLine field

/-- What a log line says: event, severity and details. -/
def details (severity : Severity) (event : String) (fields : List (String × String)) :
    List (String × String) :=
  ("event", event) :: ("severity", severity.name) :: fields

/-- A log line is a line with what it says. -/
theorem line_chars (severity : Severity) (event : String) (fields : List (String × String)) :
    Form.Line (chars severity event fields)
      (.object ((details severity event (sortFields fields)).map memberForm)) := by
  have hline := Form.Line.object (memberLine ("event", event))
    (memberLines (("severity", severity.name) :: sortFields fields))
  have hchars : chars severity event fields
      = '\x7b' :: member "event" event ++ (((("severity", severity.name) :: sortFields fields).map
          fun field => member field.1 field.2).flatMap (',' :: ·) ++ ['\x7d']) := by
    simp [chars, List.flatMap_map]
  rw [hchars]
  exact hline

/-! ## Order of the details -/

theorem sortFields_perm (fields : List (String × String)) : (sortFields fields).Perm fields :=
  List.mergeSort_perm _ _

theorem map_fst_sortFields_perm (fields : List (String × String)) :
    ((sortFields fields).map (·.1)).Perm (fields.map (·.1)) :=
  (sortFields_perm fields).map _

/-- Details of different names stand in ascending order of these. -/
theorem ascending_sortFields {fields : List (String × String)} (h : (fields.map (·.1)).Nodup) :
    Entries.Ascending (sortFields fields) := by
  have hsorted : (sortFields fields).Pairwise fun a b => a.1 ≤ b.1 := by
    have htrans (a b c : String × String) (hab : decide (a.1 ≤ b.1)) (hbc : decide (b.1 ≤ c.1)) :
        decide (a.1 ≤ c.1) :=
      decide_eq_true (le_trans (of_decide_eq_true hab) (of_decide_eq_true hbc))
    have htotal (a b : String × String) : decide (a.1 ≤ b.1) || decide (b.1 ≤ a.1) := by
      simpa using le_total a.1 b.1
    have hpairwise := List.pairwise_mergeSort htrans htotal fields
    exact hpairwise.imp fun hle => of_decide_eq_true hle
  have hnodup : (sortFields fields).Pairwise fun a b => a.1 ≠ b.1 :=
    List.pairwise_map.mp ((map_fst_sortFields_perm fields).nodup_iff.mpr h)
  exact (hsorted.and hnodup).imp fun hle => lt_of_le_of_ne hle.1 hle.2

/-- The order in which details are given does not matter. -/
theorem sortFields_congr {fields others : List (String × String)} (h : (fields.map (·.1)).Nodup)
    (hperm : others.Perm fields) : sortFields others = sortFields fields := by
  have hothers : (others.map (·.1)).Nodup := (hperm.map _).nodup_iff.mpr h
  have hsame : (sortFields others).Perm (sortFields fields) :=
    (sortFields_perm others).trans (hperm.trans (sortFields_perm fields).symm)
  exact hsame.eq_of_pairwise (fun a b _ _ hab hba => absurd hba (lt_asymm hab))
    (ascending_sortFields hothers) (ascending_sortFields h)

/-! ## Value -/

theorem memberValues?_map (levels : Nat) (fields : List (String × String)) :
    Form.memberValues? levels (fields.map memberForm)
      = some (fields.map fun field => (field.1, Json.string field.2)) := by
  induction fields with
  | nil => rfl
  | cons field rest ih => simp [Form.memberValues?, memberForm, Form.value?, ih]

/-- The value of a log line is the object of what it says. -/
theorem parse?_line (severity : Severity) (event : String) (fields : List (String × String)) :
    Json.parse? (line severity event fields)
      = some (.ofMembers ((details severity event (sortFields fields)).map fun field =>
          (field.1, Json.string field.2))) := by
  have hform := (line_chars severity event fields).ofText?
  rw [Json.parse?, line, hform, Option.bind_some, Form.value?, if_neg (by decide), memberValues?_map,
    Option.map_some]

/-- **A log line cannot be forged.** If the names of the details differ from each other and from those of
the event and the severity, then the line is one line, whatever characters are in the details. It reads as
the event, the severity and the details in order of their names, so as an object with just these members,
and it does not depend on the order in which the details were given. -/
theorem line_reads_back (severity : Severity) (event : String) (fields : List (String × String))
    (hnames : ("event" :: "severity" :: fields.map (·.1)).Nodup) :
    let text := line severity event fields
    (∀ minimum, Text.ofLines (write minimum severity event fields)
      = if minimum.isEnabled severity then text ++ "\n" else "") ∧
    '\n' ∉ text.toList ∧
    Form.ofText? text
      = some (.object ((details severity event (sortFields fields)).map memberForm)) ∧
    (∃ members, Json.parse? text = some (.object members) ∧ ∀ name value,
      members.lookup name = some value ↔
        ∃ content, value = .string content ∧ (name, content) ∈ details severity event fields) ∧
    (sortFields fields).Perm fields ∧ Entries.Ascending (sortFields fields) ∧
    ∀ others, others.Perm fields → line severity event others = text := by
  intro text
  have hdistinct : (fields.map (·.1)).Nodup := (List.nodup_cons.mp (List.nodup_cons.mp hnames).2).2
  have hline := line_chars severity event fields
  refine ⟨fun minimum => ?_, ?_, hline.ofText?, ⟨_, parse?_line severity event fields, ?_⟩,
    sortFields_perm fields, ascending_sortFields hdistinct, fun others hothers => ?_⟩
  · rw [write, Text.ofLines]
    split
    · exact String.empty_append
    · rfl
  · rw [show text = String.ofList (chars severity event fields) from rfl, String.toList_ofList]
    exact hline.newline_notMem
  · intro name value
    have hperm : (details severity event (sortFields fields)).Perm (details severity event fields) :=
      ((sortFields_perm fields).cons _).cons _
    have hkeys : (((details severity event (sortFields fields)).map fun field =>
        (field.1, Json.string field.2)).reverse.map (·.1)).Nodup := by
      rw [List.map_reverse, List.nodup_reverse, List.map_map]
      exact (hperm.map _).nodup_iff.mpr hnames
    rw [Entries.lookup_ofList, Entries.lookup_eq_some_iff_mem hkeys, List.mem_reverse, List.mem_map]
    constructor
    · rintro ⟨field, hfield, heq⟩
      obtain ⟨rfl, rfl⟩ := Prod.mk.inj heq
      exact ⟨field.2, rfl, hperm.mem_iff.mp hfield⟩
    · rintro ⟨content, rfl, hmem⟩
      exact ⟨(name, content), hperm.mem_iff.mpr hmem, rfl⟩
  · have hsame := sortFields_congr hdistinct hothers
    change String.ofList (chars severity event others) = String.ofList (chars severity event fields)
    rw [chars, chars, hsame]

theorem line_reads_back_reasons :
    let fields := [("reason", "\"\x7d,\n\x00\\\u0085"), ("code", "\x7b\"severity\":\"INFO\"\x7d")]
    (∃ members,
      Json.parse? (line .warn "QUERY_REJECTED" fields) = some (.object members) ∧
      members.lookup "severity" = some (.string "WARN") ∧
      members.lookup "reason" = some (.string "\"\x7d,\n\x00\\\u0085")) ∧
    '\n' ∉ (line .warn "QUERY_REJECTED" fields).toList := by
  intro fields
  obtain ⟨-, hline, -, ⟨members, hparse, hmembers⟩, -⟩ :=
    line_reads_back .warn "QUERY_REJECTED" fields (by decide)
  refine ⟨⟨members, hparse, ?_, ?_⟩, hline⟩
  · exact (hmembers _ _).mpr ⟨_, rfl, List.mem_cons_of_mem _ List.mem_cons_self⟩
  · exact (hmembers _ _).mpr
      ⟨_, rfl, List.mem_cons_of_mem _ (List.mem_cons_of_mem _ List.mem_cons_self)⟩

end DerivedQuery.Log
