import GroundPlane.Grid.Fragment
import GroundPlane.Gpu.Names
import GroundPlane.Main
import GroundPlane.Session.Playback
import GroundPlane.Viewer.Names
import GroundPlane.Proofs.Recording
import GroundPlane.Proofs.LitRenderer
import GroundPlane.Proofs.InputDelivery
import GroundPlane.Proofs.Exact
import GroundPlane.Proofs.Matrix
import GroundPlane.Proofs.GroundPoint
import GroundPlane.Proofs.SinglePrecision
import GroundPlane.Proofs.Drawing
import GroundPlane.Proofs.Swapchain
import GroundPlane.Proofs.CameraMatrix
import GroundPlane.Proofs.Rasterization
import GroundPlane.Proofs.RoundTrip
import GroundPlane.Proofs.Setup
import GroundPlane.Proofs.Lifecycle
import GroundPlane.Proofs.FrameProtocol
import GroundPlane.Proofs.MeshDepth
import GroundPlane.Proofs.DepthRange
import GroundPlane.Proofs.FacingNormal
import GroundPlane.Proofs.CubeNormals
import GroundPlane.Proofs.ParallelRays
import GroundPlane.Proofs.OrbitLimits
import GroundPlane.Proofs.UniformBlocks
import GroundPlane.Proofs.TextureToggle
import GroundPlane.Proofs.GridRenderer
import GroundPlane.Proofs.ObjectBlocks
import GroundPlane.Proofs.Remaking
import GroundPlane.Proofs.RoundingOrder
import GroundPlane.Proofs.LightRange
import GroundPlane.Proofs.PatternRange
import GroundPlane.Proofs.LineCoverage
import GroundPlane.Proofs.OrbitView
import GroundPlane.Proofs.InputHistory
import GroundPlane.Proofs.ControlHistory
import GroundPlane.Proofs.PointerTravel
import GroundPlane.Proofs.TextureLookup
import GroundPlane.Proofs.Checkerboard
import GroundPlane.Proofs.Alignment
import GroundPlane.Proofs.CheckerSquares
import GroundPlane.Proofs.ElapsedTime
