import QuantileSketch.Error.Text
import QuantileSketch.Growth
import QuantileSketch.Item.Float
import QuantileSketch.Proofs.DataIndependence
import QuantileSketch.Proofs.Images.Canonical
import QuantileSketch.Proofs.Images.FieldAgreement
import QuantileSketch.Proofs.Images.Safety
import QuantileSketch.Proofs.Images.Sizes
import QuantileSketch.Proofs.Images.Truncation
import QuantileSketch.Proofs.PlannedGrowth
import QuantileSketch.Proofs.RankAccuracy
import QuantileSketch.Proofs.Resumption
import QuantileSketch.Proofs.Rounding
import QuantileSketch.Proofs.Samples
import QuantileSketch.Proofs.WrappedRegions
import QuantileSketch.RankError
import QuantileSketch.Session.Update
import QuantileSketch.Sketch.Open
import QuantileSketch.Sketch.Text
import QuantileSketch.Proofs.NonNumbers
import QuantileSketch.Proofs.FreedSlots
import QuantileSketch.Proofs.Generator
import QuantileSketch.Proofs.Slots.InPlace
import QuantileSketch.Proofs.Unbiased
