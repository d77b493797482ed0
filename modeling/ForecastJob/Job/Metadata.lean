import ForecastJob.Job.Choices
import ForecastJob.Job.Uuid
import ForecastJob.Record

/-!
# Metadata of a job

Where and as whom a job runs, and how it is labelled. None of it affects the model search.

* `Identity`, `JobOutput`, `QueueSettings`, `JobResources` : records and their document forms;
* `CreationContext` : what the service records about a job;
* `Metadata` : all of it.
-/

namespace ForecastJob

structure ManagedIdentity where
  clientId : Option Uuid := none
  objectId : Option Uuid := none
  resourceId : Option String := none
  deriving DecidableEq

/-- As whom a job runs. -/
inductive Identity where
  | amlToken
  | managed (attributes : ManagedIdentity)
  | userIdentity
  deriving DecidableEq

instance : BEq Identity := instBEqOfDecidableEq

/-- An output that a job declares. -/
structure JobOutput where
  type : OutputType := default
  path : Option String := none
  mode : Option OutputMode := none
  description : Option String := none
  deriving Repr, DecidableEq

instance : BEq JobOutput := instBEqOfDecidableEq

/-- How a job is queued. -/
structure QueueSettings where
  tier : Option JobTier := none
  priority : Option Int32 := none
  deriving Repr, DecidableEq

instance : BEq QueueSettings := instBEqOfDecidableEq

/-- The compute a job asks for. -/
structure JobResources where
  instanceCount : Option UInt32 := none
  instanceType : Option String := none
  sharedMemory : Option String := none
  containerArguments : Option String := none
  deriving Repr, DecidableEq

instance : BEq JobResources := instBEqOfDecidableEq

/-- What the service records about a job. -/
structure CreationContext where
  createdAt : Option String := none
  createdBy : Option String := none
  createdByType : Option String := none
  lastModifiedAt : Option String := none
  lastModifiedBy : Option String := none
  lastModifiedByType : Option String := none
  deriving Repr, DecidableEq

instance : BEq CreationContext := instBEqOfDecidableEq

/-- Where and as whom a job runs, and how it is labelled. -/
structure Metadata where
  name : Option String := none
  displayName : Option String := none
  description : Option String := none
  experimentName : Option String := none
  tags : Dict String := .empty
  properties : Dict String := .empty
  compute : Option String := none
  environmentId : Option String := none
  environmentVariables : Dict String := .empty
  services : Dict FreeForm := .empty
  outputs : Dict JobOutput := .empty
  resources : Option JobResources := none
  identity : Option Identity := none
  queueSettings : Option QueueSettings := none
  /-- Given by the service. -/
  id : Option String := none
  /-- Given by the service. -/
  status : Option String := none
  /-- Given by the service. -/
  creationContext : Option CreationContext := none
  deriving BEq, Inhabited

/-! ## Document forms -/

def ManagedIdentity.record : Record ManagedIdentity where
  blank := {}
  closed := true
  fields := [
    .optional "client_id" Uuid.codec (·.clientId) fun v r => { r with clientId := v },
    .optional "object_id" Uuid.codec (·.objectId) fun v r => { r with objectId := v },
    .optional "resource_id" .text (·.resourceId) fun v r => { r with resourceId := v }]

namespace Identity

def union : Union Identity where
  tag := "type"
  variants := [
    ("aml_token", Union.unit .amlToken),
    ("managed", Union.fields ManagedIdentity.record .managed),
    ("user_identity", Union.unit .userIdentity)]

def write : Identity → Json
  | amlToken => Union.write "type" "aml_token" []
  | managed m => Union.write "type" "managed" (ManagedIdentity.record.members m)
  | userIdentity => Union.write "type" "user_identity" []

def codec : Codec Identity := ⟨union.read, write⟩

end Identity

def JobOutput.record : Record JobOutput where
  blank := {}
  closed := true
  fields := [
    .defaulted "type" .choice (·.type) fun v r => { r with type := v },
    .optional "path" .text (·.path) fun v r => { r with path := v },
    .optional "mode" .choice (·.mode) fun v r => { r with mode := v },
    .optional "description" .text (·.description) fun v r => { r with description := v }]

def QueueSettings.record : Record QueueSettings where
  blank := {}
  closed := true
  fields := [
    .optional "job_tier" .choice (·.tier) fun v r => { r with tier := v },
    .optional "priority" .int32 (·.priority) fun v r => { r with priority := v }]

def JobResources.record : Record JobResources where
  blank := {}
  closed := true
  fields := [
    .optional "instance_count" .uint32 (·.instanceCount) fun v r => { r with instanceCount := v },
    .optional "instance_type" .text (·.instanceType) fun v r => { r with instanceType := v },
    .optional "shm_size" .text (·.sharedMemory) fun v r => { r with sharedMemory := v },
    .optional "docker_args" .text (·.containerArguments) fun v r =>
      { r with containerArguments := v }]

end ForecastJob
