import ForecastJob.Job.Auto
import ForecastJob.Job.Choices
import ForecastJob.Record

/-!
# Forecasting settings

* `ForecastingSettings` : the record and its document form; a column list may be written as a
  single column;
* `ForecastingSettings.overwrite` : an update replaces the fields that it supplies.
-/

namespace ForecastJob

/-- How the time series are treated. -/
structure ForecastingSettings where
  timeColumn : Option String := none
  /-- How far to forecast, in units of the frequency. -/
  horizon : Option AutoOr := none
  /-- The columns that tell the series apart. -/
  seriesColumns : Option (List String) := none
  targetLags : Option TargetLags := none
  featureLags : Option FeatureLags := none
  rollingWindow : Option AutoOr := none
  /-- The country or region whose holidays count. -/
  holidayRegion : Option String := none
  useStl : Option UseStl := none
  seasonality : Option AutoOr := none
  shortSeries : Option ShortSeriesHandling := none
  frequency : Option String := none
  targetAggregate : Option TargetAggregateFunction := none
  /-- The periods between the folds of a cross-validation. -/
  cvStep : Option UInt32 := none
  /-- The columns that are not known at the time of the forecast. -/
  unknownFeatures : Option (List String) := none
  deriving DecidableEq

instance : BEq ForecastingSettings := instBEqOfDecidableEq

namespace ForecastingSettings

def record : Record ForecastingSettings where
  blank := {}
  closed := true
  fields := [
    .optional "time_column_name" .text (·.timeColumn) fun v r => { r with timeColumn := v },
    .optional "forecast_horizon" AutoOr.codec (·.horizon) fun v r => { r with horizon := v },
    .given "time_series_id_column_names" .oneOrMany (·.seriesColumns) fun v r =>
      { r with seriesColumns := v },
    .optional "target_lags" TargetLags.codec (·.targetLags) fun v r => { r with targetLags := v },
    .optional "feature_lags" .choice (·.featureLags) fun v r => { r with featureLags := v },
    .optional "target_rolling_window_size" AutoOr.codec (·.rollingWindow) fun v r =>
      { r with rollingWindow := v },
    .optional "country_or_region_for_holidays" .text (·.holidayRegion) fun v r =>
      { r with holidayRegion := v },
    .optional "use_stl" .choice (·.useStl) fun v r => { r with useStl := v },
    .optional "seasonality" AutoOr.codec (·.seasonality) fun v r => { r with seasonality := v },
    .optional "short_series_handling_config" .choice (·.shortSeries) fun v r =>
      { r with shortSeries := v },
    .optional "frequency" .text (·.frequency) fun v r => { r with frequency := v },
    .optional "target_aggregate_function" .choice (·.targetAggregate) fun v r =>
      { r with targetAggregate := v },
    .optional "cv_step_size" .uint32 (·.cvStep) fun v r => { r with cvStep := v },
    .given "features_unknown_at_forecast_time" .oneOrMany (·.unknownFeatures) fun v r =>
      { r with unknownFeatures := v }]

def overwrite (update settings : ForecastingSettings) : ForecastingSettings where
  timeColumn := update.timeColumn <|> settings.timeColumn
  horizon := update.horizon <|> settings.horizon
  seriesColumns := update.seriesColumns <|> settings.seriesColumns
  targetLags := update.targetLags <|> settings.targetLags
  featureLags := update.featureLags <|> settings.featureLags
  rollingWindow := update.rollingWindow <|> settings.rollingWindow
  holidayRegion := update.holidayRegion <|> settings.holidayRegion
  useStl := update.useStl <|> settings.useStl
  seasonality := update.seasonality <|> settings.seasonality
  shortSeries := update.shortSeries <|> settings.shortSeries
  frequency := update.frequency <|> settings.frequency
  targetAggregate := update.targetAggregate <|> settings.targetAggregate
  cvStep := update.cvStep <|> settings.cvStep
  unknownFeatures := update.unknownFeatures <|> settings.unknownFeatures

/-- The update supplies nothing. -/
def isEmpty (update : ForecastingSettings) : Bool :=
  update = {}

end ForecastingSettings

end ForecastJob
