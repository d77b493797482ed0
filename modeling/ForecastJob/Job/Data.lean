import ForecastJob.Job.Auto
import ForecastJob.Job.Binding
import ForecastJob.Job.Choices

/-!
# Data references and column roles

* `DataInput` : a path, URI, asset reference or binding, and how it reaches the compute;
* `DataSettings.overwrite` : an update replaces the fields that it supplies.
-/

namespace ForecastJob

/-- A reference to a table of data. -/
structure DataInput where
  /-- A local path, a URI, an asset reference or a binding. -/
  path : String
  mode : Option InputMode := none
  deriving Repr, DecidableEq

instance : BEq DataInput := instBEqOfDecidableEq

def DataInput.isBinding (input : DataInput) : Bool :=
  Binding.isBound input.path

/-- The data of a job and the roles of its columns. -/
structure DataSettings where
  targetColumn : Option String := none
  trainingData : Option DataInput := none
  validationData : Option DataInput := none
  /-- The share of the training data that is kept for validation. -/
  validationSize : Option Float := none
  weightColumn : Option String := none
  cvSplitColumns : Option (List String) := none
  crossValidations : Option AutoOr := none
  testData : Option DataInput := none
  /-- The share of the training data that is kept for testing. -/
  testSize : Option Float := none
  deriving BEq

/-- Replaces the fields that the update supplies. -/
def DataSettings.overwrite (update settings : DataSettings) : DataSettings where
  targetColumn := update.targetColumn <|> settings.targetColumn
  trainingData := update.trainingData <|> settings.trainingData
  validationData := update.validationData <|> settings.validationData
  validationSize := update.validationSize <|> settings.validationSize
  weightColumn := update.weightColumn <|> settings.weightColumn
  cvSplitColumns := update.cvSplitColumns <|> settings.cvSplitColumns
  crossValidations := update.crossValidations <|> settings.crossValidations
  testData := update.testData <|> settings.testData
  testSize := update.testSize <|> settings.testSize

end ForecastJob
