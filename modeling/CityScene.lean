import CityScene.Document.Read
import CityScene.Proofs.Scalar.Order
import CityScene.Proofs.Space.Hull
import CityScene.Proofs.Document.Scaffold
import CityScene.Proofs.Document.Touches
import CityScene.Proofs.Document.Step
import CityScene.Proofs.Document.Nesting
import CityScene.Proofs.Model.Completion
import CityScene.Proofs.Document.ObjectTree
import CityScene.Proofs.Feature.Points
import CityScene.Proofs.Document.Envelopes
import CityScene.Proofs.Document.References
import CityScene.Proofs.Model.Polygons
import CityScene.Proofs.Document.View
import CityScene.Proofs.Document.Comparison
import CityScene.Proofs.Document.Runs
import CityScene.Proofs.Document.Omission
import CityScene.Proofs.Document.Transparency
import CityScene.Proofs.Model.Tessellation
import CityScene.Proofs.Document.Meshes
import CityScene.Proofs.Document.Pruning
import CityScene.Proofs.Document.Rings
import CityScene.Proofs.Document.TextureCoordinates
import CityScene.Proofs.Model.Idempotence
import CityScene.Proofs.Document.Frames
import CityScene.Proofs.Document.Lods
import CityScene.Proofs.Document.Labels
import CityScene.Proofs.Document.Rejection
import CityScene.Proofs.Scalar.Same
import CityScene.Proofs.Space.Cycle
import CityScene.Proofs.Tessellation.Segments
import CityScene.Proofs.Tessellation.Repetitions
import CityScene.Proofs.Tessellation.Indistinct
import CityScene.Proofs.Tessellation.Overlap
import CityScene.Proofs.Tessellation.Area
import CityScene.Proofs.Document.Identifiers
import CityScene.Proofs.Document.Dimensions
import CityScene.Proofs.Tessellation.Smoothing
import CityScene.Proofs.Decimal.Numerals
import CityScene.Proofs.Document.Coordinates
import CityScene.Proofs.Document.Encodings
import CityScene.Proofs.Document.Unreadable
import CityScene.Proofs.Attribute.Dates
import CityScene.Proofs.Document.Registrations
import CityScene.Proofs.Attribute.Coercion
import CityScene.Proofs.Document.Attributes
import CityScene.Proofs.Model.Traversal
import CityScene.Proofs.Space.Union
import CityScene.Proofs.Document.GenericTexts
import CityScene.Proofs.Document.Grids
import CityScene.Proofs.Model.Arrangement
import CityScene.Proofs.Tessellation.Neighbours
