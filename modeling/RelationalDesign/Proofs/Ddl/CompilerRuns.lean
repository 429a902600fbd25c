import RelationalDesign.Proofs.Ddl.StatementTexts

/-!
# Runs of a compiler

A compiler is called again and again, with schemes and for texts. It holds the last scheme
that was valid (`Call.lastValid?`), and what it answers to a call depends on that scheme and
the call alone (`answerOf`), whatever else was called before: one call is `perform_eq`, and a
run of calls is `answers_calls`.
-/

set_option autoImplicit false

namespace RelationalDesign.Ddl

/-- A call of a compiler: to take a scheme, or to give the text for the one it has. -/
inductive Call where
  | accept (scheme : Scheme)
  | build

/-- What a call is answered with: a text if it asks for one, or an error. -/
abbrev Answer := Except SchemeError (Option String)

namespace Compiler

/-- The answer to a call and the compiler after it. A scheme that is refused leaves the
compiler as it is. -/
def perform (compiler : Compiler) : Call → Answer × Compiler
  | .accept scheme =>
    match compiler.accept scheme with
    | .ok next => (.ok none, next)
    | .error error => (.error error, compiler)
  | .build => (compiler.build.map some, compiler)

/-- The compiler after some calls. -/
def after (compiler : Compiler) (calls : List Call) : Compiler :=
  calls.foldl (fun compiler call => (compiler.perform call).2) compiler

/-- The answers to some calls, one after the other. -/
def answers (compiler : Compiler) : List Call → List Answer
  | [] => []
  | call :: calls => (compiler.perform call).1 :: (compiler.perform call).2.answers calls

end Compiler

/-! ## What is answered -/

/-- The scheme of a call, if it is a valid one. -/
def Call.valid? : Call → Option Scheme
  | .accept scheme =>
    match scheme.validate with
    | .ok () => some scheme
    | .error _ => none
  | .build => none

/-- The last valid scheme among some calls. -/
def Call.lastValid? (calls : List Call) : Option Scheme := (calls.filterMap Call.valid?).getLast?

/-- What is built from a scheme: its lines, unless one of its names is faulty. -/
def linesOrFault (dialect : Dialect) (scheme : Scheme) : Except SchemeError String :=
  match faultyName? (checkedNames scheme) with
  | some name => .error (.invalidIdentifier name)
  | none => .ok ("\n".intercalate (lines dialect scheme))

/-- What is built from the scheme that is held, if there is one. -/
def textOf (dialect : Dialect) : Option Scheme → Except SchemeError String
  | none => .error .noScheme
  | some scheme => linesOrFault dialect scheme

/-- The answer to a call where some scheme is the one to compile. -/
def answerOf (dialect : Dialect) (held : Option Scheme) : Call → Answer
  | .accept scheme => scheme.validate.map fun _ => none
  | .build => (textOf dialect held).map some

theorem map_render_statements {dialect : Dialect} {scheme : Scheme} {list : List Statement}
    (formed : scheme.WellFormed) (made : statements dialect scheme = .ok list) :
    list.map (Statement.render dialect) = lines dialect scheme := by
  obtain ⟨tables, tablesMade, made⟩ := bind_eq_ok_iff.1 made
  obtain ⟨foreignKeys, foreignKeysMade, same⟩ := bind_eq_ok_iff.1 made
  cases same
  rw [filter_isForeignKey formed] at foreignKeysMade
  rw [List.map_append, map_of_mapM_eq_ok (fun _ _ made => render_createTable made) tablesMade,
    map_of_mapM_eq_ok (fun _ _ made => render_addForeignKey made) foreignKeysMade, lines]
  rfl

/-- **What is built from a well-formed scheme** is its lines, or the failure of its first
faulty name. -/
theorem build_eq_linesOrFault {dialect : Dialect} {scheme : Scheme} (formed : scheme.WellFormed) :
    (Compiler.mk dialect (some scheme)).build = linesOrFault dialect scheme := by
  have failed := failure?_statements dialect formed
  have building : (Compiler.mk dialect (some scheme)).build =
      (statements dialect scheme >>= fun list =>
        pure ("\n".intercalate (list.map (Statement.render dialect)))) :=
    rfl
  unfold linesOrFault
  split
  · next name faulty =>
    rw [faulty] at failed
    rw [building]
    exact failure?_eq_some_iff.1 (failure?_bind_of_some failed)
  · next noFault =>
    rw [noFault] at failed
    obtain ⟨list, made⟩ := failure?_eq_none_iff.1 failed
    rw [building, made, ← map_render_statements formed made]
    rfl

/-! ## Runs -/

/-- A scheme that is held and has passed validation, if there is one. -/
def HoldsValid (held : Option Scheme) : Prop := ∀ scheme ∈ held, scheme.validate = .ok ()

/-- **One call** is answered by the scheme held and the call, and a valid scheme takes the
place of the one held. -/
theorem perform_eq {dialect : Dialect} {held : Option Scheme} (valid : HoldsValid held)
    (call : Call) :
    (Compiler.mk dialect held).perform call =
      (answerOf dialect held call, ⟨dialect, call.valid?.or held⟩) := by
  cases call with
  | build =>
    have built : (Compiler.mk dialect held).build = textOf dialect held := by
      cases held with
      | none => rfl
      | some scheme =>
        exact build_eq_linesOrFault (Scheme.validate_eq_ok_iff.1 (valid scheme rfl))
    rw [Compiler.perform, built]
    rfl
  | accept scheme =>
    cases verdict : scheme.validate <;>
      simp [Compiler.perform, Compiler.accept, answerOf, Call.valid?, verdict, bind, Except.bind,
        pure, Except.pure, Except.map]

theorem holdsValid_or_valid? {held : Option Scheme} (valid : HoldsValid held) (call : Call) :
    HoldsValid (call.valid?.or held) := by
  cases call with
  | build => exact valid
  | accept scheme =>
    cases verdict : scheme.validate with
    | error => simpa [Call.valid?, verdict] using valid
    | ok => simp [HoldsValid, Call.valid?, verdict]

theorem lastValid?_cons (call : Call) (calls : List Call) :
    Call.lastValid? (call :: calls) = (Call.lastValid? calls).or call.valid? := by
  unfold Call.lastValid?
  cases valid : call.valid? with
  | none => rw [List.filterMap_cons_none valid, Option.or_none]
  | some scheme =>
    rw [List.filterMap_cons_some valid, List.getLast?_cons]
    cases (calls.filterMap Call.valid?).getLast? <;> rfl

/-- **A run** leaves the last valid scheme of its calls, or else the one that was held before. -/
theorem after_eq (dialect : Dialect) {held : Option Scheme} (valid : HoldsValid held)
    (calls : List Call) :
    (Compiler.mk dialect held).after calls = ⟨dialect, (Call.lastValid? calls).or held⟩ ∧
      HoldsValid ((Call.lastValid? calls).or held) := by
  induction calls generalizing held with
  | nil => exact ⟨rfl, valid⟩
  | cons call calls ih =>
    have next := ih (holdsValid_or_valid? valid call)
    rwa [lastValid?_cons, Option.or_assoc, Compiler.after, List.foldl_cons, perform_eq valid]

namespace Compiler

theorem answers_append (compiler : Compiler) (calls later : List Call) :
    compiler.answers (calls ++ later) =
      compiler.answers calls ++ (compiler.after calls).answers later := by
  induction calls generalizing compiler with
  | nil => rfl
  | cons call calls ih => exact congrArg _ (ih _)

theorem length_answers (compiler : Compiler) (calls : List Call) :
    (compiler.answers calls).length = calls.length := by
  induction calls generalizing compiler with
  | nil => rfl
  | cons call calls ih => exact congrArg Nat.succ (ih _)

end Compiler

/-- **A compiler holds the last valid scheme and answers by it.** After any calls it holds the
last valid scheme among them, and the next call is answered in the same way whatever comes
later: a scheme by what validation says of it, and a request for the text by the scheme held.
There is no text if there is no such scheme, or if one of its names is empty or contains NUL;
the first such name is reported. Otherwise the text has a line for each table and a line for
each balanced relationship. -/
theorem answers_calls (dialect : Dialect) (calls later : List Call) (call : Call) :
    (Compiler.start dialect).after calls = ⟨dialect, Call.lastValid? calls⟩ ∧
      ((Compiler.start dialect).answers (calls ++ call :: later))[calls.length]? =
        some (answerOf dialect (Call.lastValid? calls) call) := by
  have nothing : HoldsValid none := by simp [HoldsValid]
  have run := after_eq dialect nothing calls
  rw [Option.or_none, ← Compiler.start] at run
  obtain ⟨held, valid⟩ := run
  refine ⟨held, ?_⟩
  rw [Compiler.answers_append, ← Compiler.length_answers (Compiler.start dialect) calls,
    List.getElem?_append_right (Nat.le_refl _), Nat.sub_self, held, Compiler.answers,
    perform_eq valid]
  rfl

end RelationalDesign.Ddl
