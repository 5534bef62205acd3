import SurfaceShading.Library
import SurfaceShading.Proofs.Artifact
import SurfaceShading.Proofs.Drawable
import SurfaceShading.Proofs.Freshness
import SurfaceShading.Proofs.Grammar.Bytewise.Safety
import SurfaceShading.Proofs.Grammar.Completeness
import SurfaceShading.Proofs.Grammar.PropertyNames
import SurfaceShading.Proofs.Layout.Rule
import SurfaceShading.Proofs.LoadOrder
import SurfaceShading.Proofs.Material.Coherence
import SurfaceShading.Proofs.Material.ConstantFields
import SurfaceShading.Proofs.Material.FieldNames
import SurfaceShading.Proofs.ModelDispatch
import SurfaceShading.Proofs.Orphans
import SurfaceShading.Proofs.PassStructure
import SurfaceShading.Proofs.Texture.Integrity
import SurfaceShading.Proofs.Texture.Liveness
import SurfaceShading.Proofs.TextureViews
import SurfaceShading.Proofs.TwoPhase
import SurfaceShading.Proofs.Json.Printing
import SurfaceShading.Proofs.Number.Midpoints
import SurfaceShading.Proofs.Number.ReadBack
import SurfaceShading.Proofs.Number.Written
import SurfaceShading.Proofs.Bookkeeping
import SurfaceShading.Proofs.CachedLoad
import SurfaceShading.Proofs.Material.RoundTrip
import SurfaceShading.Proofs.ModelRegistry
import SurfaceShading.Proofs.ShaderReference
import SurfaceShading.Proofs.Registration
import SurfaceShading.Proofs.PendingSplit
import SurfaceShading.Proofs.Grammar.ModelIsolation
import SurfaceShading.Proofs.Grammar.WellFormed
import SurfaceShading.Proofs.Material.Settings
import SurfaceShading.Proofs.Material.Pending
import SurfaceShading.Proofs.Library.Care
import SurfaceShading.Proofs.PendingTextures
import SurfaceShading.Proofs.DispatchOrder
import SurfaceShading.Proofs.MaterialHeader
import SurfaceShading.Proofs.Confinement
import SurfaceShading.Proofs.Texture.Uploads
import SurfaceShading.Proofs.Material.Spelling
import SurfaceShading.Proofs.ShaderListing
import SurfaceShading.Proofs.Grammar.FirstBlock
import SurfaceShading.Proofs.Grammar.ErrorLines
