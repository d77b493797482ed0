import ForecastJob.Record

/-!
# Limits on the model search

* `LimitSettings` : the record and its document form;
* `LimitSettings.overwrite` : an update replaces the fields that it supplies.
-/

namespace ForecastJob

/-- Limits on the model search. -/
structure LimitSettings where
  earlyTermination : Option Bool := none
  /-- The score at which the search stops. -/
  exitScore : Option Float := none
  maxConcurrentTrials : Option UInt32 := none
  maxCoresPerTrial : Option Int32 := none
  maxNodes : Option UInt32 := none
  maxTrials : Option UInt32 := none
  /-- The minutes the job may take. -/
  timeout : Option UInt32 := none
  /-- The minutes one trial may take. -/
  trialTimeout : Option UInt32 := none
  deriving BEq

namespace LimitSettings

def record : Record LimitSettings where
  blank := {}
  closed := true
  fields := [
    .optional "enable_early_termination" .bool (·.earlyTermination) fun v r =>
      { r with earlyTermination := v },
    .optional "exit_score" .float (·.exitScore) fun v r => { r with exitScore := v },
    .optional "max_concurrent_trials" .uint32 (·.maxConcurrentTrials) fun v r =>
      { r with maxConcurrentTrials := v },
    .optional "max_cores_per_trial" .int32 (·.maxCoresPerTrial) fun v r =>
      { r with maxCoresPerTrial := v },
    .optional "max_nodes" .uint32 (·.maxNodes) fun v r => { r with maxNodes := v },
    .optional "max_trials" .uint32 (·.maxTrials) fun v r => { r with maxTrials := v },
    .optional "timeout_minutes" .uint32 (·.timeout) fun v r => { r with timeout := v },
    .optional "trial_timeout_minutes" .uint32 (·.trialTimeout) fun v r =>
      { r with trialTimeout := v }]

def overwrite (update settings : LimitSettings) : LimitSettings where
  earlyTermination := update.earlyTermination <|> settings.earlyTermination
  exitScore := update.exitScore <|> settings.exitScore
  maxConcurrentTrials := update.maxConcurrentTrials <|> settings.maxConcurrentTrials
  maxCoresPerTrial := update.maxCoresPerTrial <|> settings.maxCoresPerTrial
  maxNodes := update.maxNodes <|> settings.maxNodes
  maxTrials := update.maxTrials <|> settings.maxTrials
  timeout := update.timeout <|> settings.timeout
  trialTimeout := update.trialTimeout <|> settings.trialTimeout

end LimitSettings

end ForecastJob
