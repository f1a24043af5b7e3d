import CarrierTransport.Decimal.Scientific
import CarrierTransport.Proofs.Flight.Affine
import CarrierTransport.Proofs.Flight.Prolonged
import CarrierTransport.Proofs.Flight.Release
import CarrierTransport.Proofs.Flight.Trajectory
import CarrierTransport.Proofs.Flight.Translation
import CarrierTransport.Proofs.Run.Average
import CarrierTransport.Proofs.Run.Clock
import CarrierTransport.Proofs.Run.Composition
import CarrierTransport.Proofs.Run.Doping
import CarrierTransport.Proofs.Run.Gain
import CarrierTransport.Proofs.Run.Magnetism
import CarrierTransport.Proofs.Run.Observation
import CarrierTransport.Proofs.Run.Partition
import CarrierTransport.Proofs.Sensor.Box
import CarrierTransport.Proofs.Silicon.Drift
import CarrierTransport.Proofs.Silicon.Growth
import CarrierTransport.Proofs.Silicon.Saturation
import CarrierTransport.Proofs.Silicon.Subdivision
import CarrierTransport.Run.Profiles
import CarrierTransport.Scalar.Double
