import GraphGateway.Evaluation.Stage

/-!
# Running traversals

A traversal runs stage by stage; each step takes the modulators that follow it
directly. Child traversals are turned into routines first, by recursion on the
traversal, so that running a list of stages is a plain recursion on the list.
-/

namespace GraphGateway

namespace Stage

/-- Run stages one after another; `taken` says that leading modulators belong to an earlier step. -/
def run (access : Access) (taken : Bool) : List Stage → Routine
  | [], start => pure (start.getD [])
  | stage :: rest, start =>
      if stage.step.isModulator then
        if taken then run access true rest start
        else throw (.nothingToModulate stage.step.name)
      else do
        let modulators := rest.takeWhile fun s => s.step.isModulator
        checkModulators stage.step modulators
        let results ← stage.apply access modulators start
        run access true rest (some results)

end Stage

mutual

/-- What the child traversal of a step does; steps without one yield nothing. -/
def Step.childRoutine (access : Access) : Step → Routine
  | .suchThat condition => condition.routine access
  | .modulator _ child => child.routine access
  | _ => fun _ => pure []

def Step.stages (access : Access) : List Step → List Stage
  | [] => []
  | step :: rest => ⟨step, step.childRoutine access⟩ :: Step.stages access rest

def Traversal.routine (access : Access) : Traversal → Routine
  | .mk _ steps => Stage.run access false (Step.stages access steps)

end

namespace Store

def accessFor (t : Traversal) : Access :=
  if t.isMutating then .write else .read

def submit (t : Traversal) (s : Store) : Except EvaluationError (List Value) × Store :=
  if t.isAnonymous then (.error .anonymous, s)
  else Eval.runOn (t.routine (accessFor t) none) s

def submitFirst (t : Traversal) (s : Store) : Except EvaluationError (Option Value) × Store :=
  let (outcome, next) := s.submit (t.step (.limit 1))
  (outcome.map List.head?, next)

def addEdge (label : String) (source target : ElementId) (s : Store) :
    Except EvaluationError Edge × Store :=
  let (id, ids) := s.ids.next
  match s.graph.insertEdge id label source target with
  | .ok (edge, graph) => (.ok edge, ⟨graph, ids⟩)
  | .error e => (.error e, ⟨s.graph, ids⟩)

end Store

end GraphGateway
