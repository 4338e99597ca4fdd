import GroundPlane.Lighting.Stage
import GroundPlane.Named
import GroundPlane.Session.Control
import GroundPlane.Viewer.Logging

/-!
# Names of the viewer's settings
-/

namespace GroundPlane

instance : Named NormalSource where
  table := [("ScreenDerivative", .derivative), ("Vertex", .vertex)]

instance : Named Control where
  table := [("Continue", .proceed), ("Exit", .exit)]

instance : Named Logging.Level where
  table := [
    ("OFF", .off), ("ERROR", .error), ("WARN", .warn), ("INFO", .info), ("DEBUG", .debug),
    ("TRACE", .trace)]

end GroundPlane
