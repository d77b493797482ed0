import ForecastJob.Main
import ForecastJob.Proofs.Import
import ForecastJob.Proofs.Schema.Required
import ForecastJob.Proofs.StackEnsemble
import ForecastJob.Proofs.Wire.NormalForm
import ForecastJob.Proofs.PrimaryMetric
import ForecastJob.Proofs.Wire.Violations
import ForecastJob.Proofs.Keys
import ForecastJob.Proofs.Schema.Keys
import ForecastJob.Proofs.Schema.Layouts
import ForecastJob.Proofs.Duration.Canonical
import ForecastJob.Proofs.Wire.Equality
import ForecastJob.Proofs.Schema.Independence
import ForecastJob.Proofs.Insertion
import ForecastJob.Proofs.Wire.Insertion
import ForecastJob.Proofs.Duration.WellFormed
import ForecastJob.Proofs.Location
import ForecastJob.Proofs.Schema.Dump
import ForecastJob.Proofs.Schema.BlankPath
import ForecastJob.Proofs.Forgiveness
import ForecastJob.Proofs.Rewriting
import ForecastJob.Proofs.Schema.Rewriting
import ForecastJob.Proofs.Binding
import ForecastJob.Proofs.Yaml.WithoutNulls
import ForecastJob.Proofs.Printed
