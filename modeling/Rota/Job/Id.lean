/-
The numbers of jobs and of their executions.
-/
namespace Rota

/-- A job's number, drawn when it is accepted. -/
structure JobId where
  number : Nat
deriving DecidableEq, Repr

def JobId.text (id : JobId) : String := "JobId(" ++ Nat.repr id.number ++ ")"

structure TaskId where
  number : Nat
deriving DecidableEq, Repr

def TaskId.text (task : TaskId) : String := "TaskId(" ++ Nat.repr task.number ++ ")"

end Rota
