import FormFill.Command.Run

/-! # The inputs of commands

What can be wrong with the inputs of a command is listed in the order in which a run comes to it;
every entry of the list looks at one input alone. A part of a run that reads inputs fails with the
head of its list. Inputs without a problem give one field map: that of the file, overwritten by the
assignments.
-/

namespace FormFill

namespace Environment

variable (environment : Environment) (path : Text)

/-- The problem with reading a file. -/
def fileProblems : List CommandError :=
  match environment.file path with
  | .ok _ => []
  | .error fault => [.file path fault]

/-- The problem with the text of a file that can be read. -/
def contentProblems {α : Type} (read : Text → Except InputError α) : List CommandError :=
  match environment.file path with
  | .error _ => []
  | .ok text =>
    match read text with
    | .ok _ => []
    | .error error => [.input error]

end Environment

namespace FieldArguments

/-- The problem with an assignment: it has no equals sign, or no name before the first one. -/
def assignmentProblems (pair : Text) : List CommandError :=
  if '=' ∉ pair ∨ pair.head? = some '=' then [.input (.assignment pair)] else []

/-- The problems with the file of fields and then with the assignments, from left to right. -/
def problems (arguments : FieldArguments) (environment : Environment) : List CommandError :=
  (match arguments.file with
    | some path =>
      environment.fileProblems path ++ environment.contentProblems path FieldMap.read
    | none => []) ++
  arguments.pairs.flatMap assignmentProblems

end FieldArguments

namespace Command

/-- The problems with the inputs of a command, in the order in which a run comes to them. -/
def problems (command : Command) (environment : Environment) : List CommandError :=
  match command with
  | .extract _ fields => fields.problems environment
  | .generate _ arguments => arguments.fields.problems environment
  | .pad _ _ => []
  | .populate path fields _ =>
    fields.problems environment ++
      (environment.fileProblems path ++ environment.contentProblems path FieldSpec.read)

end Command

/-- A part of a run succeeds when there is no problem, and otherwise fails with the first of them,
for which its input is to blame. -/
inductive Reports {α : Type} : Except CommandError α → List CommandError → Prop
  | nothing (value : α) : Reports (.ok value) []
  | first (problem : CommandError) (others : List CommandError) (input : problem.exit = 2) :
      Reports (.error problem) (problem :: others)

namespace Reports

variable {α β : Type} {part : Except CommandError α} {next : α → Except CommandError β}
  {problems others : List CommandError}

/-- Of two parts of a run the first comes first with its problems. -/
theorem bind (here : Reports part problems) (later : ∀ value, Reports (next value) others) :
    Reports (part >>= next) (problems ++ others) := by
  cases here with
  | nothing value => exact later value
  | first problem rest input => exact .first problem (rest ++ others) input

/-- The text of a file is read after the file, and what comes later needs what was read. -/
theorem content {read : Text → Except InputError α} (environment : Environment) (path : Text)
    (later : ∀ value, Reports (next value) others) :
    Reports (environment.read path >>= fun text => CommandError.ofInput (read text) >>= next)
      (environment.fileProblems path ++ environment.contentProblems path read ++ others) := by
  unfold Environment.read Environment.fileProblems Environment.contentProblems
  cases environment.file path with
  | error fault => exact .first _ _ rfl
  | ok text =>
    change Reports (CommandError.ofInput (read text) >>= next) _
    refine bind ?_ later
    simp only [List.nil_append]
    cases read text with
    | error error => exact .first _ _ rfl
    | ok value => exact .nothing value

end Reports

/-- An assignment without a problem: a name and a text, with an equals sign between them. -/
structure Assignment where
  name : Text
  value : Text
  named : name ≠ []
  signless : '=' ∉ name

namespace Assignment

/-- The assignment as it is given. -/
def text (assignment : Assignment) : Text := assignment.name ++ '=' :: assignment.value

/-- What the assignment writes into the fields. -/
def written (assignment : Assignment) : Text × FieldValue :=
  (assignment.name, .text assignment.value)

theorem readAssignment_text (assignment : Assignment) :
    FieldMap.readAssignment assignment.text = .ok assignment.written := by
  obtain ⟨name, value, named, signless⟩ := assignment
  have inside : ∀ c ∈ name, (c != '=') = true := fun c member => by
    simpa using ne_of_mem_of_not_mem member signless
  have taken : (name ++ '=' :: value).takeWhile (· != '=') = name :=
    Text.takeWhile_run inside (by simp)
  have left : (name ++ '=' :: value).dropWhile (· != '=') = '=' :: value :=
    Text.dropWhile_run inside (by simp)
  obtain ⟨c, name, rfl⟩ := List.exists_cons_of_ne_nil named
  simp only [text, written, FieldMap.readAssignment, taken, left]

/-- A text is an assignment, or it has a problem and is refused for it. -/
theorem exists_or_refused (pair : Text) :
    (∃ assignment : Assignment, pair = assignment.text ∧
        FieldArguments.assignmentProblems pair = []) ∨
      FieldMap.readAssignment pair = .error (.assignment pair) ∧
        FieldArguments.assignmentProblems pair = [.input (.assignment pair)] := by
  unfold FieldArguments.assignmentProblems
  by_cases signed : '=' ∈ pair
  · obtain ⟨name, value, rfl, signless⟩ := List.eq_append_cons_of_mem signed
    cases name with
    | nil => exact .inr ⟨by simp [FieldMap.readAssignment], by simp⟩
    | cons c name =>
      have other : c ≠ '=' := fun same => signless (same ▸ List.mem_cons_self)
      exact .inl ⟨⟨c :: name, value, List.cons_ne_nil _ _, signless⟩, rfl, by simp [other]⟩
  · have inside : ∀ c ∈ pair, (c != '=') = true := fun c member => by
      simpa using ne_of_mem_of_not_mem member signed
    have left : (pair ++ []).dropWhile (· != '=') = [] := Text.dropWhile_run inside (by simp)
    rw [List.append_nil] at left
    exact .inr ⟨by simp [FieldMap.readAssignment, left], by simp [signed]⟩

end Assignment

namespace FieldArguments

/-- Assignments without a problem are all written into the fields, in their order. -/
theorem assignAll_map_text (assignments : List Assignment) (fields : FieldMap) :
    assignAll (assignments.map (·.text)) fields =
      .ok (fields.overwrite (assignments.map (·.written))) := by
  induction assignments generalizing fields with
  | nil => rfl
  | cons assignment assignments ih =>
    simp [assignAll, assignment.readAssignment_text, Assignment.written, ih, bind, Except.bind]

end FieldArguments

/-- A file that has no problem can be read, and so can its text. -/
theorem Environment.exists_content {α : Type} {environment : Environment} {path : Text}
    {read : Text → Except InputError α}
    (fine : environment.fileProblems path ++ environment.contentProblems path read = []) :
    ∃ text value, environment.file path = .ok text ∧ read text = .ok value := by
  unfold fileProblems contentProblems at fine
  cases content : environment.file path with
  | error fault => simp [content] at fine
  | ok text =>
    cases holds : read text with
    | error error => simp [content, holds] at fine
    | ok value => exact ⟨text, value, rfl, holds⟩

namespace FieldArguments

/-- The fields that a command knows: those of its file, if it has one, overwritten by its
assignments in their order. -/
def Give (arguments : FieldArguments) (environment : Environment) (known : FieldMap) : Prop :=
  ∃ (base : FieldMap) (assignments : List Assignment),
    (match arguments.file with
      | some path => ∃ text, environment.file path = .ok text ∧ FieldMap.read text = .ok base
      | none => base = ∅) ∧
    arguments.pairs = assignments.map (·.text) ∧
    known = base.overwrite (assignments.map (·.written))

/-- Texts without a problem are assignments. -/
theorem exists_assignments {pairs : List Text} (fine : pairs.flatMap assignmentProblems = []) :
    ∃ assignments : List Assignment, pairs = assignments.map (·.text) := by
  induction pairs with
  | nil => exact ⟨[], rfl⟩
  | cons pair pairs ih =>
    rw [List.flatMap_cons, List.append_eq_nil_iff] at fine
    obtain ⟨assignments, rfl⟩ := ih fine.2
    rcases Assignment.exists_or_refused pair with ⟨assignment, rfl, -⟩ | ⟨-, problem⟩
    · exact ⟨assignment :: assignments, rfl⟩
    · rw [problem] at fine
      exact absurd fine.1 (List.cons_ne_nil _ _)

/-- The fields that a command knows are those that it loads. -/
theorem Give.load {arguments : FieldArguments} {environment : Environment} {known : FieldMap}
    (given : arguments.Give environment known) : arguments.load environment = .ok known := by
  obtain ⟨base, assignments, source, pairs, rfl⟩ := given
  have written := assignAll_map_text assignments base
  unfold FieldArguments.load
  cases file : arguments.file with
  | none =>
    rw [file] at source
    cases source
    simp [pairs, written, CommandError.ofInput, bind, Except.bind, pure, Except.pure]
  | some path =>
    rw [file] at source
    obtain ⟨text, content, read⟩ := source
    simp [Environment.read, content, read, pairs, written, CommandError.ofInput, bind, Except.bind]

theorem Give.unique {arguments : FieldArguments} {environment : Environment}
    {known other : FieldMap} (given : arguments.Give environment known)
    (again : arguments.Give environment other) : known = other :=
  Except.ok.inj (given.load.symm.trans again.load)

/-- Without a problem there is a map that the command knows. -/
theorem exists_give {arguments : FieldArguments} {environment : Environment}
    (fine : arguments.problems environment = []) : ∃ known, arguments.Give environment known := by
  obtain ⟨source, pairs⟩ := List.append_eq_nil_iff.mp fine
  obtain ⟨assignments, pairs⟩ := exists_assignments pairs
  unfold Give
  cases file : arguments.file with
  | none => exact ⟨_, ∅, assignments, rfl, pairs, rfl⟩
  | some path =>
    rw [file] at source
    obtain ⟨text, base, content, read⟩ := Environment.exists_content source
    exact ⟨_, base, assignments, ⟨text, content, read⟩, pairs, rfl⟩

end FieldArguments

end FormFill
