import DerivedQuery.Proofs.Command.Steps
import DerivedQuery.Proofs.Json.Reading

/-!
# What commands answer with

A command answers with one line, a JSON object that says whether the command has done its work or why it
has failed, with one exception (`run_answers`): a plan that is a rejection is shown like any other plan,
and the failure is a second line.

`runOn_run` says for all commands which lines there are; a part of a command adds none, since it is
silent.
-/

namespace DerivedQuery.Command

open Json (Form)

/-! ## Lines -/

/-- The line is one JSON object with these members, in this order. -/
def IsObject (line : String) (members : List (String × Form)) : Prop :=
  '\n' ∉ line.toList ∧
    Form.ofText? line = some (.object (members.map fun member => (some member.1, member.2)))

/-- The line says that a command has done its work. -/
def SaysOk (line : String) : Prop :=
  ∃ data, IsObject line [("data", data), ("status", .string (some "ok"))]

/-- The line says that a command has failed, and why. -/
def SaysError (error : CommandError) (line : String) : Prop :=
  IsObject line [("code", .string (some error.code)), ("message", .string (some error.message)),
    ("status", .string (some "error"))]

/-- The compact text of an object is a line with the members of the object. -/
theorem isObject_compact (members : List (String × Json)) :
    IsObject (Json.object members).compact
      (members.map fun member => (member.1, Form.printed member.2)) := by
  refine ⟨Form.newline_notMem_compact _, ?_⟩
  rw [Form.ofText?_compact, Form.printed, Form.printedMembers_eq_map, List.map_map]
  rfl

/-- An object whose first members belong behind the others. -/
theorem ofMembers_append (front back : List (String × Json)) (names : List String)
    (hnames : (front ++ back).map (·.1) = names) (h : names.Pairwise (· < ·)) :
    Json.ofMembers (back ++ front) = .object (front ++ back) :=
  congrArg Json.object (Entries.ofList_eq_of_perm (List.pairwise_map.mp (hnames ▸ h))
    List.perm_append_comm)

theorem success_eq (data : Json) :
    success data = .object [("data", data), ("status", .string "ok")] :=
  ofMembers_append [("data", data)] [("status", .string "ok")] ["data", "status"] rfl (by decide)

theorem failure_eq (error : CommandError) :
    Command.failure error = .object [("code", .string error.code),
      ("message", .string error.message), ("status", .string "error")] :=
  ofMembers_append [("code", .string error.code), ("message", .string error.message)]
    [("status", .string "error")] ["code", "message", "status"] rfl (by decide)

theorem saysOk_success (data : Json) : SaysOk (success data).compact := by
  rw [success_eq]
  exact ⟨Form.printed data, isObject_compact [("data", data), ("status", .string "ok")]⟩

theorem saysError_failure (error : CommandError) :
    SaysError error (Command.failure error).compact := by
  rw [failure_eq]
  exact isObject_compact [("code", .string error.code), ("message", .string error.message),
    ("status", .string "error")]

/-! ## Commands -/

variable (files : FileReader Id) (line : CommandLine)

/-- How a command ends, and the lines that it answers with. -/
def answered : Except CommandError Unit × List Json :=
  match line.kind with
  | .explain =>
    match (planOf files line).ending with
    | .ok (.rejected error) => (.error (.rejected error),
        [success (ExplainPlan.rejected error).toJson, Command.failure (.rejected error)])
    | .ok plan => (.ok (), [success plan.toJson])
    | .error error => (.error error, [Command.failure error])
  | .query =>
    match (outcomeOf files line).ending with
    | .ok outcome => (.ok (), [success (outcomeJson outcome)])
    | .error error => (.error error, [Command.failure error])

/-- **A command adds just its answers to the output.** -/
theorem runOn_run (transcript : Transcript) :
    ∃ later, (run files line).runOn transcript = ((answered files line).1, later) ∧
      later.output = (answered files line).2.reverse ++ transcript.output := by
  rw [run, CommandM.runOn_tryCatch, answered]
  cases line.kind with
  | explain =>
    obtain ⟨later, hplan, houtput⟩ := (planOf files line).runOn_of_silent transcript
    dsimp only
    rw [explain, CommandM.runOn_bind, hplan]
    cases (planOf files line).ending with
    | error error => exact ⟨_, rfl, congrArg (_ :: ·) houtput⟩
    | ok plan =>
      cases plan with
      | accepted query partition => exact ⟨_, rfl, congrArg (_ :: ·) houtput⟩
      | rejected error => exact ⟨_, rfl, congrArg (_ :: _ :: ·) houtput⟩
  | query =>
    obtain ⟨later, houtcome, houtput⟩ := (outcomeOf files line).runOn_of_silent transcript
    dsimp only
    rw [query, CommandM.runOn_bind, houtcome]
    cases (outcomeOf files line).ending with
    | error error => exact ⟨_, rfl, congrArg (_ :: ·) houtput⟩
    | ok outcome => exact ⟨_, rfl, congrArg (_ :: ·) houtput⟩

theorem answers_of_output {transcript : Transcript} {lines : List Json}
    (h : transcript.output = lines.reverse) : transcript.answers = lines.map (·.compact) := by
  rw [Transcript.answers, h, List.reverse_reverse]

/-- **A command answers with one line, a JSON object that says how it ends.** Only if the plan that it is
to show is a rejection, it answers with two: the plan is shown as work that is done, and then the command
fails with the rejection. -/
theorem run_answers :
    ∃ result transcript, (run files line).runOn {} = (result, transcript) ∧
      match line.kind, (planOf files line).ending with
      | .explain, .ok (.rejected error) =>
        result = .error (.rejected error) ∧ ∃ shown answer,
          transcript.outputText = shown ++ "\n" ++ (answer ++ "\n") ∧
          SaysOk shown ∧ SaysError (.rejected error) answer
      | _, _ => ∃ answer, transcript.outputText = answer ++ "\n" ∧
          match result with
          | .ok () => SaysOk answer
          | .error error => SaysError error answer := by
  obtain ⟨later, hrun, houtput⟩ := runOn_run files line {}
  have hanswers := answers_of_output (houtput.trans (List.append_nil _))
  refine ⟨_, later, hrun, ?_⟩
  rw [Transcript.outputText, hanswers]
  unfold answered
  cases line.kind with
  | query =>
    dsimp only
    cases (outcomeOf files line).ending with
    | ok outcome => exact ⟨_, Text.ofLines_singleton _, saysOk_success (outcomeJson outcome)⟩
    | error error => exact ⟨_, Text.ofLines_singleton _, saysError_failure error⟩
  | explain =>
    dsimp only
    cases (planOf files line).ending with
    | error error => exact ⟨_, Text.ofLines_singleton _, saysError_failure error⟩
    | ok plan =>
      cases plan with
      | accepted query partition => exact ⟨_, Text.ofLines_singleton _, saysOk_success _⟩
      | rejected error =>
        have hshown := saysOk_success (ExplainPlan.rejected error).toJson
        refine ⟨rfl, _, _, ?_, hshown, saysError_failure (.rejected error)⟩
        exact (Text.ofLines_cons _ _).trans (congrArg _ (Text.ofLines_singleton _))

/-- Two lines are not one. -/
theorem ofLines_pair_ne {first second answer : String} (h : '\n' ∉ answer.toList) :
    Text.ofLines [first, second] ≠ answer ++ "\n" := by
  intro heq
  rw [Text.ofLines_cons, Text.ofLines_singleton, ← String.append_assoc, String.append_left_inj] at heq
  refine h ?_
  rw [← heq]
  simp

/-- Why a plan is rejected. -/
def rejection? : ExplainPlan → Option QueryError
  | .accepted .. => none
  | .rejected error => some error

theorem eq_rejected_of_rejection? {plan : Except CommandError ExplainPlan} {cause : QueryError}
    (h : plan.toOption.bind rejection? = some cause) : plan = .ok (.rejected cause) := by
  match plan, h with
  | .ok (.rejected _), rfl => rfl

/-- A rejection is answered twice. -/
theorem runOn_run_of_rejected {cause : QueryError} (hkind : line.kind = .explain)
    (hplan : (planOf files line).ending = .ok (.rejected cause)) :
    ∃ transcript, (run files line).runOn {} = (.error (.rejected cause), transcript) ∧
      transcript.answers = [(success (ExplainPlan.rejected cause).toJson).compact,
        (Command.failure (.rejected cause)).compact] := by
  obtain ⟨later, hrun, houtput⟩ := runOn_run files line {}
  rw [List.append_nil] at houtput
  have hanswered : answered files line = (.error (.rejected cause),
      [success (ExplainPlan.rejected cause).toJson, Command.failure (.rejected cause)]) := by
    rw [answered, hkind]
    simp only [hplan]
  rw [hanswered] at hrun houtput
  exact ⟨later, hrun, answers_of_output houtput⟩

/-- A command that is to explain a rejected call answers with two objects: the plan, as work that is done,
and the failure. -/
theorem rejection_answered_twice :
    let files : FileReader Id := fun _ => .ok
      "\x7b\"collections\":[\x7b\"name\":\"Town\",\"properties\":\x7b\"id\":\x7b\"type\":\"string\"\x7d\x7d\x7d]\x7d"
    let line : CommandLine :=
      { kind := .explain, entity := "Town", method := "findByMayor", arguments := "[\"Ann\"]" }
    ∃ transcript,
      (run files line).runOn {} = (.error (.rejected (.unknownProperty "Town" "mayor")), transcript) ∧
      (∃ shown answer, transcript.answers = [shown, answer] ∧ SaysOk shown ∧
        SaysError (.rejected (.unknownProperty "Town" "mayor")) answer) ∧
      ¬∃ answer : String, '\n' ∉ answer.toList ∧ transcript.outputText = answer ++ "\n" := by
  intro files line
  have hplan : (planOf files line).ending.toOption.bind rejection?
      = some (.unknownProperty "Town" "mayor") := by decide +kernel
  obtain ⟨transcript, hrun, hanswers⟩ :=
    runOn_run_of_rejected files line rfl (eq_rejected_of_rejection? hplan)
  have hshown := saysOk_success (ExplainPlan.rejected (.unknownProperty "Town" "mayor")).toJson
  have hanswer := saysError_failure (.rejected (.unknownProperty "Town" "mayor"))
  refine ⟨transcript, hrun, ⟨_, _, hanswers, hshown, hanswer⟩, ?_⟩
  rintro ⟨answer, hanswer, htext⟩
  rw [Transcript.outputText, hanswers] at htext
  exact ofLines_pair_ne hanswer htext

end DerivedQuery.Command
