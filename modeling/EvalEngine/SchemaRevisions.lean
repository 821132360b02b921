import EvalEngine.RevisionChains

namespace EvalEngine.SchemaRevisions

open EvalEngine.Catalogs EvalEngine.RevisionChains

inductive EnumName
  | planTier | userRole | submissionStatus | runStatus | workerStatus | auditAction
  deriving DecidableEq

inductive TableName
  | organizations | users | submissions | evaluationRuns | workerResults | claims | contradictions | scores
  | auditLogs | evaluationConfigs
  deriving DecidableEq

inductive ColumnName
  | id | name | slug | planTier | rateLimitPerMinute | maxConcurrentEvaluations | settings | email
  | hashedPassword | fullName | role | organizationId | isActive | lastLoginAt | failedLoginAttempts
  | submittedById | startupName | description | websiteUrl | pitchDeckUrl | status | metadata | rawContent
  | submissionId | triggeredById | version | startedAt | completedAt | totalWorkers | completedWorkers
  | failedWorkers | overallScore | errorMessage | celeryTaskId | configSnapshot | evaluationRunId
  | workerType | workerId | processingTimeMs | outputData | claimText | category | sourceReference
  | confidenceScore | verificationStatus | evidence | claimAId | claimBId | contradictionType | severity
  | explanation | dimension | value | weight | rationale | breakdown | timestamp | userId | action
  | resourceType | resourceId | ipAddress | userAgent | requestId | changes | detail | createdById
  | pipelineConfig | webhookUrl | isTemplate | createdAt | updatedAt | deletedAt | configId
  deriving DecidableEq

inductive IndexName
  | ixOrganizationsSlugActive | ixUsersEmailActive | ixUsersOrgActive | ixSubmissionsOrgStatusActive
  | ixSubmissionsOrgActive | ixEvaluationRunsSubmissionActive | ixEvaluationRunsOrgStatusActive
  | ixEvaluationRunsPendingRunning | ixEvaluationRunsCeleryTask | ixWorkerResultsRunActive
  | ixWorkerResultsStatusActive | ixClaimsRunActive | ixClaimsRunCategoryActive | ixClaimsOrgActive
  | ixContradictionsRunActive | ixContradictionsOrgActive | uqScoresRunDimensionActive | ixScoresRunActive
  | ixScoresOrgDimensionActive | ixAuditLogsOrgTimestamp | ixAuditLogsAction
  | ixAuditLogsRequestId | ixAuditLogsUserId | ixEvaluationRunsCeleryTaskId | uqOrgDashboardStats
  deriving DecidableEq

inductive FunctionName
  | preventAuditLogModification | preventScoreUpdate | updateUpdatedAtColumn | refreshOrgDashboardStats
  deriving DecidableEq

inductive TriggerName
  | trgAuditLogsNoUpdate | trgAuditLogsNoDelete | trgScoresImmutable | trgUpdatedAt
  deriving DecidableEq

inductive CheckName
  | ckScoresValueRange | ckScoresWeightRange
  deriving DecidableEq

/-- The objects of the revisions, and those of anybody else. -/
inductive ObjectName
  | enum (e : EnumName)
  | table (t : TableName)
  | orgDashboardStats
  | index (i : IndexName)
  | sequence (t : TableName)
  | primaryKey (t : TableName)
  | foreignKey (t : TableName) (c : ColumnName)
  | check (c : CheckName)
  | function (f : FunctionName)
  | trigger (t : TableName) (g : TriggerName)
  | policy (t : TableName)
  | other (name : String)
  deriving DecidableEq

def ours : ObjectName → Bool
  | .other _ => false
  | _ => true

open ObjectName

/-- A column, its enum type, and whether it has a server default. -/
structure Column where
  name : ColumnName
  enum : Option EnumName := none
  serverDefault : Bool := false
  deriving DecidableEq

/-- What a table has of its own. The other objects have none of it. -/
structure Detail where
  columns : List Column := []
  rowSecurity : Bool := false
  deriving DecidableEq

abbrev Statements := List (Statement ObjectName Detail)

def plain (c : ColumnName) : Column := { name := c }

def withDefault (c : ColumnName) : Column := { name := c, serverDefault := true }

def enumWithDefault (c : ColumnName) (e : EnumName) : Column := { name := c, enum := some e, serverDefault := true }

/-- The columns of the mixins. -/
def timestamps : List Column := [withDefault .createdAt, withDefault .updatedAt, plain .deletedAt]

def Detail.has (detail : Detail) (c : ColumnName) : Bool :=
  detail.columns.any fun column => decide (column.name = c)

def hasColumn (t : TableName) (c : ColumnName) : Statement ObjectName Detail := .check (table t) (Detail.has · c)

/-- `ALTER COLUMN`: the column must be there. -/
def alterColumn (t : TableName) (c : ColumnName) (f : Column → Column) : Statement ObjectName Detail :=
  .alter (table t) fun detail =>
    if detail.has c then
      some { detail with columns := detail.columns.map fun column => if column.name = c then f column else column }
    else none

def dropDefault (t : TableName) (c : ColumnName) : Statement ObjectName Detail :=
  alterColumn t c fun column => { column with serverDefault := false }

def setDefault (t : TableName) (c : ColumnName) : Statement ObjectName Detail :=
  alterColumn t c fun column => { column with serverDefault := true }

def addColumn (t : TableName) (column : Column) : Statement ObjectName Detail :=
  .alter (table t) fun detail =>
    if detail.has column.name then none else some { detail with columns := detail.columns ++ [column] }

def dropColumn (t : TableName) (c : ColumnName) : Statement ObjectName Detail :=
  .alter (table t) fun detail =>
    if detail.has c then some { detail with columns := detail.columns.filter fun column => column.name ≠ c }
    else none

/-- An object that belongs to some columns of a table. -/
def createOn (t : TableName) (columns : List ColumnName) (name : ObjectName) (requires : List ObjectName) :
    Statements :=
  columns.map (hasColumn t) ++ [.create { name, detail := {}, requires, goesWith := [table t] }]

/-- A foreign key without a name is known by its table and its column. -/
def createForeignKey (t : TableName) (c : ColumnName) (referent : TableName) : Statements :=
  hasColumn referent .id :: createOn t [c] (foreignKey t c) [table referent]

def createTable (t : TableName) (columns : List Column) (foreignKeys : List (ColumnName × TableName)) :
    Statements :=
  .create { name := table t, detail := { columns }, requires := columns.filterMap fun c => c.enum.map enum } ::
    (createOn t [.id] (primaryKey t) [] ++ foreignKeys.flatMap fun key => createForeignKey t key.1 key.2)

def checkConstraint (t : TableName) (c : CheckName) (columns : List ColumnName) : Statements :=
  createOn t columns (check c) []

def createIndex (i : IndexName) (t : TableName) (columns : List ColumnName) : Statements :=
  createOn t columns (index i) []

/-- The sequence of a serial key. -/
def createSequence (t : TableName) : Statements := createOn t [.id] (sequence t) []

def dropIndex (i : IndexName) : Statement ObjectName Detail := .drop (index i)

def dropTable (t : TableName) : Statement ObjectName Detail := .drop (table t)

/-- `ENUM.create(checkfirst=True)`. -/
def createEnum (e : EnumName) : Statement ObjectName Detail := .ensure { name := enum e, detail := {} }

/-- `CREATE OR REPLACE FUNCTION`. -/
def createFunction (f : FunctionName) : Statement ObjectName Detail := .ensure { name := function f, detail := {} }

def createTrigger (g : TriggerName) (t : TableName) (executes : FunctionName) : Statements :=
  createOn t [] (trigger t g) [function executes]

def setRowSecurity (t : TableName) (rowSecurity : Bool) : Statement ObjectName Detail :=
  .alter (table t) fun detail => some { detail with rowSecurity }

def createPolicy (t : TableName) : Statements := createOn t [.organizationId] (policy t) []

namespace InitialSchema

def enums : List EnumName :=
  [.planTier, .userRole, .submissionStatus, .runStatus, .workerStatus, .auditAction]

/-- The tables that the trigger for `updated_at` is on. -/
def stamped : List TableName :=
  [.organizations, .users, .submissions, .evaluationRuns, .workerResults, .claims, .contradictions,
    .scores]

def tables : Statements :=
  [createTable .organizations
      ([plain .id, plain .name, plain .slug, enumWithDefault .planTier .planTier,
        withDefault .rateLimitPerMinute, withDefault .maxConcurrentEvaluations, withDefault .settings] ++
        timestamps)
      [],
    createIndex .ixOrganizationsSlugActive .organizations [.slug],
    createTable .users
      ([plain .id, plain .email, plain .hashedPassword, plain .fullName, enumWithDefault .role .userRole,
        plain .organizationId, withDefault .isActive, plain .lastLoginAt,
        withDefault .failedLoginAttempts] ++ timestamps)
      [(.organizationId, .organizations)],
    createIndex .ixUsersEmailActive .users [.email],
    createIndex .ixUsersOrgActive .users [.organizationId],
    createTable .submissions
      ([plain .id, plain .organizationId, plain .submittedById, plain .startupName, plain .description,
        plain .websiteUrl, plain .pitchDeckUrl, enumWithDefault .status .submissionStatus,
        withDefault .metadata, withDefault .rawContent] ++ timestamps)
      [(.organizationId, .organizations), (.submittedById, .users)],
    createIndex .ixSubmissionsOrgStatusActive .submissions [.organizationId, .status],
    createIndex .ixSubmissionsOrgActive .submissions [.organizationId],
    createTable .evaluationRuns
      ([plain .id, plain .submissionId, plain .organizationId, plain .triggeredById,
        enumWithDefault .status .runStatus, withDefault .version, plain .startedAt, plain .completedAt,
        withDefault .totalWorkers, withDefault .completedWorkers, withDefault .failedWorkers,
        plain .overallScore, plain .errorMessage, plain .celeryTaskId, withDefault .configSnapshot,
        withDefault .metadata] ++ timestamps)
      [(.submissionId, .submissions), (.organizationId, .organizations), (.triggeredById, .users)],
    createIndex .ixEvaluationRunsSubmissionActive .evaluationRuns [.submissionId],
    createIndex .ixEvaluationRunsOrgStatusActive .evaluationRuns [.organizationId, .status],
    createIndex .ixEvaluationRunsPendingRunning .evaluationRuns [.status, .createdAt],
    createIndex .ixEvaluationRunsCeleryTask .evaluationRuns [.celeryTaskId],
    createTable .workerResults
      ([plain .id, plain .evaluationRunId, plain .organizationId, plain .workerType, plain .workerId,
        plain .celeryTaskId, enumWithDefault .status .workerStatus, withDefault .processingTimeMs,
        withDefault .outputData, plain .errorMessage] ++ timestamps)
      [(.evaluationRunId, .evaluationRuns), (.organizationId, .organizations)],
    createIndex .ixWorkerResultsRunActive .workerResults [.evaluationRunId],
    createIndex .ixWorkerResultsStatusActive .workerResults [.evaluationRunId, .status],
    createTable .claims
      ([plain .id, plain .evaluationRunId, plain .submissionId, plain .organizationId, plain .claimText,
        plain .category, plain .sourceReference, withDefault .confidenceScore,
        withDefault .verificationStatus, withDefault .evidence, withDefault .metadata] ++ timestamps)
      [(.evaluationRunId, .evaluationRuns), (.submissionId, .submissions),
        (.organizationId, .organizations)],
    createIndex .ixClaimsRunActive .claims [.evaluationRunId],
    createIndex .ixClaimsRunCategoryActive .claims [.evaluationRunId, .category],
    createIndex .ixClaimsOrgActive .claims [.organizationId],
    createTable .contradictions
      ([plain .id, plain .evaluationRunId, plain .organizationId, plain .claimAId, plain .claimBId,
        plain .contradictionType, plain .severity, plain .explanation, withDefault .evidence] ++ timestamps)
      [(.evaluationRunId, .evaluationRuns), (.organizationId, .organizations), (.claimAId, .claims),
        (.claimBId, .claims)],
    createIndex .ixContradictionsRunActive .contradictions [.evaluationRunId],
    createIndex .ixContradictionsOrgActive .contradictions [.organizationId],
    createTable .scores
      ([plain .id, plain .evaluationRunId, plain .organizationId, plain .dimension, plain .value,
        withDefault .weight, plain .rationale, withDefault .breakdown] ++ timestamps)
      [(.evaluationRunId, .evaluationRuns), (.organizationId, .organizations)],
    checkConstraint .scores .ckScoresValueRange [.value],
    checkConstraint .scores .ckScoresWeightRange [.weight],
    createIndex .uqScoresRunDimensionActive .scores [.evaluationRunId, .dimension],
    createIndex .ixScoresRunActive .scores [.evaluationRunId],
    createIndex .ixScoresOrgDimensionActive .scores [.organizationId, .dimension],
    -- A serial key comes with a sequence.
    createTable .auditLogs
      [withDefault .id, withDefault .timestamp, plain .organizationId, plain .userId,
        { name := .action, enum := some .auditAction }, plain .resourceType, plain .resourceId,
        plain .ipAddress, plain .userAgent, plain .requestId, plain .changes, withDefault .status,
        plain .detail]
      [],
    createSequence .auditLogs,
    createIndex .ixAuditLogsOrgTimestamp .auditLogs [.organizationId, .timestamp],
    createIndex .ixAuditLogsAction .auditLogs [.action],
    createIndex .ixAuditLogsRequestId .auditLogs [.requestId],
    createIndex .ixAuditLogsUserId .auditLogs [.userId]].flatten

def triggers : Statements :=
  [[createFunction .preventAuditLogModification],
    createTrigger .trgAuditLogsNoUpdate .auditLogs .preventAuditLogModification,
    createTrigger .trgAuditLogsNoDelete .auditLogs .preventAuditLogModification,
    [createFunction .preventScoreUpdate],
    createTrigger .trgScoresImmutable .scores .preventScoreUpdate,
    [createFunction .updateUpdatedAtColumn]].flatten ++
  stamped.flatMap fun t => createTrigger .trgUpdatedAt t .updateUpdatedAtColumn

def secured : List TableName :=
  [.users, .submissions, .evaluationRuns, .workerResults, .claims, .contradictions, .scores,
    .auditLogs]

def policies : Statements :=
  secured.flatMap fun t => setRowSecurity t true :: createPolicy t

def upgrade : Statements := enums.map createEnum ++ tables ++ triggers ++ policies

def downgrade : Statements :=
  ([.auditLogs, .scores, .contradictions, .claims, .workerResults, .evaluationRuns, .submissions,
      .users].flatMap fun t => [.dropIfExists (policy t), setRowSecurity t false]) ++
  (stamped.map fun t => .dropIfExists (trigger t .trgUpdatedAt)) ++
  [.dropIfExists (trigger .scores .trgScoresImmutable),
    .dropIfExists (trigger .auditLogs .trgAuditLogsNoDelete),
    .dropIfExists (trigger .auditLogs .trgAuditLogsNoUpdate),
    .dropIfExists (function .updateUpdatedAtColumn),
    .dropIfExists (function .preventScoreUpdate),
    .dropIfExists (function .preventAuditLogModification)] ++
  [.auditLogs, .scores, .contradictions, .claims, .workerResults, .evaluationRuns, .submissions,
    .users, .organizations].map dropTable ++
  [.auditAction, .workerStatus, .runStatus, .submissionStatus, .userRole, .planTier].map
    fun e => .dropIfExists (enum e)

end InitialSchema

namespace MaterializedViews

def upgrade : Statements :=
  [hasColumn .organizations .id, hasColumn .organizations .name, hasColumn .organizations .deletedAt,
    hasColumn .submissions .id, hasColumn .submissions .organizationId, hasColumn .submissions .deletedAt,
    hasColumn .evaluationRuns .id, hasColumn .evaluationRuns .overallScore,
    hasColumn .evaluationRuns .updatedAt, hasColumn .evaluationRuns .organizationId,
    hasColumn .evaluationRuns .deletedAt,
    .create {
      name := orgDashboardStats
      detail := {}
      requires := [table .organizations, table .submissions, table .evaluationRuns] },
    .create { name := index .uqOrgDashboardStats, detail := {}, goesWith := [orgDashboardStats] },
    createFunction .refreshOrgDashboardStats]

def downgrade : Statements :=
  [.dropIfExists (function .refreshOrgDashboardStats), .dropIfExists orgDashboardStats]

end MaterializedViews

namespace AddEvaluationConfigs

def upgrade : Statements :=
  createTable .evaluationConfigs
    [plain .name, plain .description, plain .organizationId, plain .createdById,
      withDefault .pipelineConfig, plain .webhookUrl, plain .isTemplate, plain .id,
      withDefault .createdAt, withDefault .updatedAt, plain .deletedAt, withDefault .version]
    [(.createdById, .users), (.organizationId, .organizations)] ++
  [dropDefault .auditLogs .status, dropDefault .claims .confidenceScore,
    dropDefault .claims .verificationStatus, addColumn .evaluationRuns (plain .configId),
    dropDefault .evaluationRuns .status, dropDefault .evaluationRuns .totalWorkers,
    dropDefault .evaluationRuns .completedWorkers, dropDefault .evaluationRuns .failedWorkers,
    dropIndex .ixEvaluationRunsCeleryTask] ++
  createIndex .ixEvaluationRunsCeleryTaskId .evaluationRuns [.celeryTaskId] ++
  createForeignKey .evaluationRuns .configId .evaluationConfigs ++
  [dropDefault .organizations .planTier, dropDefault .organizations .rateLimitPerMinute,
    dropDefault .organizations .maxConcurrentEvaluations, dropDefault .scores .weight,
    dropDefault .submissions .status, dropDefault .users .role, dropDefault .users .isActive,
    dropDefault .users .failedLoginAttempts, dropDefault .workerResults .status,
    dropDefault .workerResults .processingTimeMs]

/-- `drop_constraint(None)`: there is no statement to drop a constraint without a name. -/
def dropConstraintNone : Statement ObjectName Detail := .refuse

def downgrade : Statements :=
  [setDefault .workerResults .processingTimeMs, setDefault .workerResults .status,
    setDefault .users .failedLoginAttempts, setDefault .users .isActive, setDefault .users .role,
    setDefault .submissions .status, setDefault .scores .weight,
    setDefault .organizations .maxConcurrentEvaluations, setDefault .organizations .rateLimitPerMinute,
    setDefault .organizations .planTier, dropConstraintNone, dropIndex .ixEvaluationRunsCeleryTaskId] ++
  createIndex .ixEvaluationRunsCeleryTask .evaluationRuns [.celeryTaskId] ++
  [setDefault .evaluationRuns .failedWorkers, setDefault .evaluationRuns .completedWorkers,
    setDefault .evaluationRuns .totalWorkers, setDefault .evaluationRuns .status,
    dropColumn .evaluationRuns .configId, setDefault .claims .verificationStatus,
    setDefault .claims .confidenceScore, setDefault .auditLogs .status, dropTable .evaluationConfigs]

end AddEvaluationConfigs

/-- The revisions, from the first to the head. -/
def revisions : List (Revision ObjectName Detail) :=
  [⟨InitialSchema.upgrade, InitialSchema.downgrade⟩,
    ⟨MaterializedViews.upgrade, MaterializedViews.downgrade⟩,
    ⟨AddEvaluationConfigs.upgrade, AddEvaluationConfigs.downgrade⟩]

/-- Whether a downgrade goes through. -/
def revertible (i : ℕ) : Bool := decide (i ≠ 2)

theorem revisions_within : ∀ rev ∈ revisions, Within ours (rev.upgrade ++ rev.downgrade) := by
  have hall : (revisions.all fun rev => (rev.upgrade ++ rev.downgrade).all fun st => st.mentions.all ours) = true := by
    decide +kernel
  intro rev hrev st hst name hname
  exact List.all_eq_true.1 (List.all_eq_true.1 (List.all_eq_true.1 hall rev hrev) st hst) name hname

theorem upgrades_succeed : (run [] (upgrades revisions 0 revisions.length)).isSome = true := by
  decide +kernel

theorem initialSchema_down : run (schemaOf revisions 1) InitialSchema.downgrade = some (schemaOf revisions 0) := by
  decide +kernel

theorem materializedViews_down :
    run (schemaOf revisions 2) MaterializedViews.downgrade = some (schemaOf revisions 1) := by
  decide +kernel

theorem addEvaluationConfigs_down : run (schemaOf revisions 3) AddEvaluationConfigs.downgrade = none := by
  decide +kernel

theorem revisions_tracked : Tracks ours revisions (schemaOf revisions) revertible := by
  refine tracks_schemaOf revisions_within upgrades_succeed fun i rev hrev => ?_
  match i, hrev with
  | 0, hrev =>
    cases hrev
    exact initialSchema_down
  | 1, hrev =>
    cases hrev
    exact materializedViews_down
  | 2, hrev =>
    cases hrev
    exact addEvaluationConfigs_down

variable {base : List (Entry ObjectName Detail)} {n target : ℕ}

/-- Migrations keep the schema and the recorded revision together, whatever else
is in the database and whatever fails: upgrades always succeed, downgrades take
back what upgrades have done below the head, and nothing ever leaves the head. -/
theorem schema_follows_revision (hbase : Foreign ours base) (hn : n ≤ 3) (commands : List Command) :
    ∃ m ≤ 3, attempts revisions (revisionAt base (schemaOf revisions) n) commands =
        revisionAt base (schemaOf revisions) m ∧
      (n = 3 → m = 3) ∧
      (∀ target ≤ 3, execute revisions (revisionAt base (schemaOf revisions) m) (.upgrade target) =
        some (revisionAt base (schemaOf revisions) (max m target))) ∧
      (∀ target ≤ m, execute revisions (revisionAt base (schemaOf revisions) m) (.downgrade target) =
        if m = 3 ∧ target < 3 then none else some (revisionAt base (schemaOf revisions) target)) := by
  obtain ⟨m, hm, hrun, hstay⟩ := attempts_tracked revisions_tracked hbase hn commands
  refine ⟨m, hm, hrun, ?_, fun target htarget => execute_upgrade revisions_tracked hbase htarget, ?_⟩
  · intro hhead
    have hlast : 2 < m := hstay 2 (by omega) rfl
    exact Nat.le_antisymm hm hlast
  · intro target htarget
    split
    · rename_i hlow
      exact execute_downgrade_stuck revisions_tracked hbase hm (Nat.le_of_lt_succ hlow.2) (by omega) rfl
    · rename_i hlow
      refine execute_downgrade revisions_tracked hbase hm htarget fun i hi hlt => ?_
      have hm' : m ≤ 3 := hm
      exact decide_eq_true (by omega)

/-- Beside the table of Alembic itself. -/
theorem head_kept : ∃ m ≤ 3,
    attempts revisions (revisionAt [⟨.other "alembic_version", {}, [], []⟩] (schemaOf revisions) 3)
        [.downgrade 0, .upgrade 2] =
      revisionAt [⟨.other "alembic_version", {}, [], []⟩] (schemaOf revisions) m ∧ m = 3 := by
  have hbase : Foreign ours [(⟨.other "alembic_version", {}, [], []⟩ : Entry ObjectName Detail)] :=
    ⟨by simp [ours], by simp⟩
  obtain ⟨m, hm, hrun, hhead, _⟩ := schema_follows_revision hbase (Nat.le_refl 3) [.downgrade 0, .upgrade 2]
  exact ⟨m, hm, hrun, hhead rfl⟩

end EvalEngine.SchemaRevisions
