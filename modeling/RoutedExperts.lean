import RoutedExperts.Main
import RoutedExperts.Proofs.Layer.DenseLayers
import RoutedExperts.Proofs.Layer.GatedNetwork
import RoutedExperts.Proofs.Product.Handover
import RoutedExperts.Proofs.Quantization.QuantizedMatrix
import RoutedExperts.Proofs.Quantization.RoundTrip
import RoutedExperts.Proofs.Quantization.ScaleRows
import RoutedExperts.Proofs.Routing.Ranking
import RoutedExperts.Synthetic.Problem
import RoutedExperts.Proofs.Product.RepeatedRows
import RoutedExperts.Proofs.Quantization.PackedFields
import RoutedExperts.Proofs.Numeric.Distance
import RoutedExperts.Proofs.Run.Verification
import RoutedExperts.Proofs.Reference.RoutedRows
import RoutedExperts.Proofs.Reference.Agreement
import RoutedExperts.Proofs.Quantization.Checkpoints
import RoutedExperts.Proofs.Quantization.GroupCounts
import RoutedExperts.Proofs.Run.Precedence
import RoutedExperts.Proofs.Numeric.Value
import RoutedExperts.Proofs.Numeric.Rounding
import RoutedExperts.Proofs.Numeric.Arithmetic
import RoutedExperts.Proofs.Quantization.GroupScale
import RoutedExperts.Proofs.Quantization.ErrorBound
