import ForecastJob.Choice

/-!
# The choices a forecasting job makes

One finite type per setting, each with its payload and its document spellings, the ones that
have a default with an `Inhabited` instance.
-/

namespace ForecastJob

/-! ## Forecasting -/

/-- Whether lags are generated for numeric features. -/
inductive FeatureLags where
  | none | auto
  deriving Repr, DecidableEq

instance : Choice FeatureLags where
  name := "FeatureLags"
  all := [.none, .auto]
  wire
    | .none => "None"
    | .auto => "Auto"
  doc
    | .none => "none"
    | .auto => "auto"

/-- How the target column is decomposed. -/
inductive UseStl where
  | none | season | seasonTrend
  deriving Repr, DecidableEq

instance : Choice UseStl where
  name := "UseStl"
  all := [.none, .season, .seasonTrend]
  wire
    | .none => "None"
    | .season => "Season"
    | .seasonTrend => "SeasonTrend"
  doc
    | .none => "none"
    | .season => "season"
    | .seasonTrend => "season_trend"

/-- What happens to series that are too short. -/
inductive ShortSeriesHandling where
  | none | auto | pad | drop
  deriving Repr, DecidableEq

instance : Choice ShortSeriesHandling where
  name := "ShortSeriesHandling"
  all := [.none, .auto, .pad, .drop]
  wire
    | .none => "None"
    | .auto => "Auto"
    | .pad => "Pad"
    | .drop => "Drop"
  doc
    | .none => "none"
    | .auto => "auto"
    | .pad => "pad"
    | .drop => "drop"

/-- How the target is aggregated to the requested frequency. -/
inductive TargetAggregateFunction where
  | none | sum | max | min | mean
  deriving Repr, DecidableEq

instance : Choice TargetAggregateFunction where
  name := "TargetAggregateFunction"
  all := [.none, .sum, .max, .min, .mean]
  wire
    | .none => "None"
    | .sum => "Sum"
    | .max => "Max"
    | .min => "Min"
    | .mean => "Mean"
  doc
    | .none => "none"
    | .sum => "sum"
    | .max => "max"
    | .min => "min"
    | .mean => "mean"

/-- The scores a job can optimise. -/
inductive ForecastingMetric where
  | spearmanCorrelation | normalizedRootMeanSquaredError | r2Score | normalizedMeanAbsoluteError
  deriving Repr, DecidableEq

instance : Choice ForecastingMetric where
  name := "ForecastingPrimaryMetric"
  all := [.spearmanCorrelation, .normalizedRootMeanSquaredError, .r2Score,
    .normalizedMeanAbsoluteError]
  wire
    | .spearmanCorrelation => "SpearmanCorrelation"
    | .normalizedRootMeanSquaredError => "NormalizedRootMeanSquaredError"
    | .r2Score => "R2Score"
    | .normalizedMeanAbsoluteError => "NormalizedMeanAbsoluteError"
  doc
    | .spearmanCorrelation => "spearman_correlation"
    | .normalizedRootMeanSquaredError => "normalized_root_mean_squared_error"
    | .r2Score => "r2_score"
    | .normalizedMeanAbsoluteError => "normalized_mean_absolute_error"

instance : Inhabited ForecastingMetric := ⟨.normalizedRootMeanSquaredError⟩

/-! ## Data, training and featurization -/

/-- How a data input reaches the compute. -/
inductive InputMode where
  | readOnlyMount | readWriteMount | download | direct | evalMount | evalDownload
  deriving Repr, DecidableEq

instance : Choice InputMode where
  name := "InputMode"
  all := [.readOnlyMount, .readWriteMount, .download, .direct, .evalMount, .evalDownload]
  wire
    | .readOnlyMount => "ReadOnlyMount"
    | .readWriteMount => "ReadWriteMount"
    | .download => "Download"
    | .direct => "Direct"
    | .evalMount => "EvalMount"
    | .evalDownload => "EvalDownload"
  doc
    | .readOnlyMount => "ro_mount"
    | .readWriteMount => "rw_mount"
    | .download => "download"
    | .direct => "direct"
    | .evalMount => "eval_mount"
    | .evalDownload => "eval_download"

/-- How much the service logs. -/
inductive LogVerbosity where
  | notSet | debug | info | warning | error | critical
  deriving Repr, DecidableEq

instance : Choice LogVerbosity where
  name := "LogVerbosity"
  all := [.notSet, .debug, .info, .warning, .error, .critical]
  wire
    | .notSet => "NotSet"
    | .debug => "Debug"
    | .info => "Info"
    | .warning => "Warning"
    | .error => "Error"
    | .critical => "Critical"
  doc
    | .notSet => "not_set"
    | .debug => "debug"
    | .info => "info"
    | .warning => "warning"
    | .error => "error"
    | .critical => "critical"

instance : Inhabited LogVerbosity := ⟨.info⟩

/-- Whether training is distributed. -/
inductive TrainingMode where
  | auto | distributed | nonDistributed
  deriving Repr, DecidableEq

instance : Choice TrainingMode where
  name := "TrainingMode"
  all := [.auto, .distributed, .nonDistributed]
  wire
    | .auto => "Auto"
    | .distributed => "Distributed"
    | .nonDistributed => "NonDistributed"
  doc
    | .auto => "auto"
    | .distributed => "distributed"
    | .nonDistributed => "non_distributed"

/-- The learner that combines the models of a stack ensemble. -/
inductive StackMetaLearner where
  | none | logisticRegression | logisticRegressionCV | lightGBMClassifier | elasticNet
  | elasticNetCV | lightGBMRegressor | linearRegression
  deriving Repr, DecidableEq

instance : Choice StackMetaLearner where
  name := "StackMetaLearnerType"
  all := [.none, .logisticRegression, .logisticRegressionCV, .lightGBMClassifier, .elasticNet,
    .elasticNetCV, .lightGBMRegressor, .linearRegression]
  wire
    | .none => "None"
    | .logisticRegression => "LogisticRegression"
    | .logisticRegressionCV => "LogisticRegressionCV"
    | .lightGBMClassifier => "LightGBMClassifier"
    | .elasticNet => "ElasticNet"
    | .elasticNetCV => "ElasticNetCV"
    | .lightGBMRegressor => "LightGBMRegressor"
    | .linearRegression => "LinearRegression"
  doc
    | .none => "none"
    | .logisticRegression => "logistic_regression"
    | .logisticRegressionCV => "logistic_regression_cv"
    | .lightGBMClassifier => "light_gbm_classifier"
    | .elasticNet => "elastic_net"
    | .elasticNetCV => "elastic_net_cv"
    | .lightGBMRegressor => "light_gbm_regressor"
    | .linearRegression => "linear_regression"

/-- How the input columns are featurized. -/
inductive FeaturizationMode where
  | auto | custom | off
  deriving Repr, DecidableEq

instance : Choice FeaturizationMode where
  name := "FeaturizationMode"
  all := [.auto, .custom, .off]
  wire
    | .auto => "Auto"
    | .custom => "Custom"
    | .off => "Off"
  doc
    | .auto => "auto"
    | .custom => "custom"
    | .off => "off"

/-! ## Job-level metadata -/

/-- The kind of asset an output is. -/
inductive OutputType where
  | uriFolder | uriFile | mlTable | customModel | mlflowModel | tritonModel
  deriving Repr, DecidableEq

instance : Choice OutputType where
  name := "OutputType"
  all := [.uriFolder, .uriFile, .mlTable, .customModel, .mlflowModel, .tritonModel]
  wire
    | .uriFolder => "uri_folder"
    | .uriFile => "uri_file"
    | .mlTable => "mltable"
    | .customModel => "custom_model"
    | .mlflowModel => "mlflow_model"
    | .tritonModel => "triton_model"
  doc
    | .uriFolder => "uri_folder"
    | .uriFile => "uri_file"
    | .mlTable => "mltable"
    | .customModel => "custom_model"
    | .mlflowModel => "mlflow_model"
    | .tritonModel => "triton_model"

instance : Inhabited OutputType := ⟨.uriFolder⟩

/-- How an output is written. -/
inductive OutputMode where
  | readWriteMount | upload | direct
  deriving Repr, DecidableEq

instance : Choice OutputMode where
  name := "OutputMode"
  all := [.readWriteMount, .upload, .direct]
  wire
    | .readWriteMount => "ReadWriteMount"
    | .upload => "Upload"
    | .direct => "Direct"
  doc
    | .readWriteMount => "rw_mount"
    | .upload => "upload"
    | .direct => "direct"

/-- The service tier a job is queued on. -/
inductive JobTier where
  | null | spot | basic | standard | premium
  deriving Repr, DecidableEq

instance : Choice JobTier where
  name := "JobTier"
  all := [.null, .spot, .basic, .standard, .premium]
  wire
    | .null => "Null"
    | .spot => "Spot"
    | .basic => "Basic"
    | .standard => "Standard"
    | .premium => "Premium"
  doc
    | .null => "null"
    | .spot => "spot"
    | .basic => "basic"
    | .standard => "standard"
    | .premium => "premium"

end ForecastJob
