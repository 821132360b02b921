import EvalEngine.RunModel

namespace EvalEngine.SubmissionModel

open EvalEngine.JsonValues EvalEngine.Exceptions EvalEngine.RunModel

inductive SubmissionStatus
  | draft
  | submitted
  | underReview
  | evaluated
  | archived
  deriving DecidableEq, Repr

def SubmissionStatus.value : SubmissionStatus → String
  | .draft => "draft"
  | .submitted => "submitted"
  | .underReview => "under_review"
  | .evaluated => "evaluated"
  | .archived => "archived"

structure Submission where
  id : UUID
  organizationId : UUID
  submittedById : Option UUID
  startupName : String
  description : Option String := none
  websiteUrl : Option String := none
  pitchDeckUrl : Option String := none
  status : SubmissionStatus := .draft
  metadata : Dict := []
  rawContent : Dict := []
  createdAt : Time
  updatedAt : Time
  deletedAt : Option Time := none

end EvalEngine.SubmissionModel
