/-
The annals of a job: what the journal tells of its attempts and its due times, the latest first. A
change of due time ends a chapter, so that there is a chapter for each occurrence.
-/
import Rota.Board

namespace Rota

/-- What matters of an event to the attempts and the due times of its job. -/
inductive Mark
  /-- An attempt began. -/
  | started
  /-- No instance could be built, and the job was done with. -/
  | abandoned
  | succeeded
  /-- An attempt failed and is to be made again. -/
  | retried
  /-- An attempt failed and no retry was left. -/
  | exhausted
  /-- The next occurrence began, with this due time. -/
  | rescheduled (dueAt : Instant)
deriving DecidableEq

namespace Mark

/-- Whether an execution began. -/
def isStart : Mark → Bool
  | started | abandoned => true
  | _ => false

/-- Whether an attempt came to an outcome that stands. -/
def isFinal : Mark → Bool
  | succeeded | exhausted => true
  | _ => false

def isRetry : Mark → Bool
  | retried => true
  | _ => false

/-- The due time that the mark tells of. -/
def dueAt? : Mark → Option Instant
  | rescheduled dueAt => some dueAt
  | _ => none

end Mark

/-- What an event means to a job. -/
def Event.mark? (id : JobId) : Event → Option Mark
  | executing job _ _ => if job = id then some .started else none
  | abandoned job _ => if job = id then some .abandoned else none
  | completed job => if job = id then some .succeeded else none
  | retrying job _ _ => if job = id then some .retried else none
  | exhausted job _ _ => if job = id then some .exhausted else none
  | rescheduled job time => if job = id then some (.rescheduled time) else none
  | _ => none

/-- The annals of a job, the latest first. -/
def Board.annals (board : Board) (id : JobId) : List Mark := board.journal.filterMap (·.mark? id)

/-- The marks of each occurrence, the latest occurrence and the latest mark first. -/
def chapters : List Mark → List (List Mark)
  | [] => [[]]
  | .rescheduled _ :: earlier => [] :: chapters earlier
  | mark :: earlier =>
    match chapters earlier with
    | [] => [[mark]]
    | chapter :: others => (mark :: chapter) :: others

/-- The due times that the annals tell of, in order of time. -/
def dueTimes (annals : List Mark) : List Instant := (annals.filterMap Mark.dueAt?).reverse

/-- The marks of the present occurrence. -/
def presentChapter (annals : List Mark) : List Mark := (chapters annals).headD []

/-- The marks of each occurrence before the present one. -/
def earlierChapters (annals : List Mark) : List (List Mark) := (chapters annals).tail

theorem chapters_eq (annals : List Mark) : chapters annals = presentChapter annals :: earlierChapters annals := by
  unfold presentChapter earlierChapters
  cases hc : chapters annals with
  | cons chapter others => rfl
  | nil =>
    unfold chapters at hc
    split at hc
    · cases hc
    · cases hc
    · split at hc <;> cases hc

@[simp] theorem presentChapter_rescheduled (dueAt : Instant) (annals : List Mark) :
    presentChapter (.rescheduled dueAt :: annals) = [] := rfl
@[simp] theorem earlierChapters_rescheduled (dueAt : Instant) (annals : List Mark) :
    earlierChapters (.rescheduled dueAt :: annals) = presentChapter annals :: earlierChapters annals :=
  chapters_eq annals

theorem chapters_cons {mark : Mark} (h : mark.dueAt? = none) (annals : List Mark) :
    chapters (mark :: annals) = (mark :: presentChapter annals) :: earlierChapters annals := by
  cases mark <;> first | (cases h; done) | (unfold chapters; rw [chapters_eq annals])

/-- Any other mark is added to the present chapter. -/
theorem presentChapter_cons (mark : Mark) (h : mark.dueAt? = none) (annals : List Mark) :
    presentChapter (mark :: annals) = mark :: presentChapter annals := by
  unfold presentChapter; rw [chapters_cons h]; rfl

theorem earlierChapters_cons (mark : Mark) (h : mark.dueAt? = none) (annals : List Mark) :
    earlierChapters (mark :: annals) = earlierChapters annals := by
  unfold earlierChapters; rw [chapters_cons h]; rfl

theorem dueTimes_rescheduled (dueAt : Instant) (annals : List Mark) :
    dueTimes (.rescheduled dueAt :: annals) = dueTimes annals ++ [dueAt] := by
  simp [dueTimes, Mark.dueAt?]

theorem dueTimes_cons {mark : Mark} (h : mark.dueAt? = none) (annals : List Mark) :
    dueTimes (mark :: annals) = dueTimes annals := by
  simp [dueTimes, h]

namespace Board

theorem annals_cons {board board' : Board} {event : Event} (h : board'.journal = event :: board.journal) (id : JobId) :
    board'.annals id = (event.mark? id).toList ++ board.annals id := by
  unfold annals
  rw [h, List.filterMap_cons]
  cases event.mark? id <;> rfl

end Board

end Rota
