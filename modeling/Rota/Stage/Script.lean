/-
Scripts for job bodies: what an instance does in each of its attempts. Scripts are kept under the
keys of instances, and attempts are counted by key.
-/
import Rota.Attempt
import Rota.Stage.Cast

namespace Rota

/-- What a body does once it is awake. -/
inductive Act
  /-- It waits until somebody lets it go, and says how it is to end. -/
  | gate
  | hang
  | ends (outcome : Outcome)
deriving DecidableEq, Repr

/-- What an instance does in one attempt. -/
structure Scene where
  hook : Outcome
  /-- How many milliseconds the body sleeps first. -/
  sleep : Nat
  act : Act
deriving DecidableEq, Repr

/-- An attempt in which nothing happens but that it is done. -/
def Scene.plain : Scene := ⟨.done, 0, .ends .done⟩

/-- What an instance does in its attempts, and how long each may take. -/
structure Script where
  limit : Option Duration
  scenes : List Scene
deriving DecidableEq, Repr

structure Stage where
  scripts : List (String × Script)
  counts : List (String × Nat)
deriving DecidableEq, Repr

namespace Stage

def empty : Stage := ⟨[], []⟩

/-- Keeps a script under a key, in place of any other. -/
def setScript (stage : Stage) (key : String) (script : Script) : Stage :=
  { stage with scripts := (key, script) :: stage.scripts.filter (·.1 != key) }

/-- The attempts made so far under a key. -/
def count (stage : Stage) (key : String) : Nat := (stage.counts.lookup key).getD 0

/-- What is done in the so many-th attempt under a key, counted from 1; past the end of its script,
nothing. -/
def sceneAt (stage : Stage) (key : String) (attempt : Nat) : Scene :=
  ((stage.scripts.lookup key).bind fun script => script.scenes[attempt - 1]?).getD .plain

/-- Counts one more attempt under a key: its number, what is done in it, and the stage after that. -/
def nextScene (stage : Stage) (key : String) : Nat × Scene × Stage :=
  let attempt := stage.count key + 1
  (attempt, stage.sceneAt key attempt,
    { stage with counts := (key, attempt) :: stage.counts.filter (·.1 != key) })

/-- How long an attempt of an instance may take. -/
def limit (stage : Stage) (performer : Instance) : Option Duration :=
  if performer.kind.isBodyOnly then none
  else (stage.scripts.lookup performer.key).bind (·.limit)

def length (stage : Stage) : Nat := stage.scripts.foldl (fun n s => n + s.2.scenes.length) 0

end Stage

/-- A scene of an instance as an attempt that nobody outside takes part in: a gate never opens. -/
def Scene.attempt (scene : Scene) (performer : Instance) (limit : Option Duration) : Attempt where
  hook := ⟨some 0, if performer.kind.isBodyOnly then .done else scene.hook⟩
  body :=
    match scene.act with
    | .ends outcome => ⟨some scene.sleep, outcome⟩
    | .gate | .hang => ⟨none, .done⟩
  limit := match limit with
    | some limit => .within limit
    | none => .none

end Rota
