import Gwr.Python.Dict
import Gwr.Python.Yaml
import Gwr.Python.Int
import Gwr.Onnx
import Gwr.Timetable.Tensors
import Gwr.Timetable.Layout
import Gwr.Timetable.Placement
import Gwr.Timetable.Records
import Gwr.Timetable.Chunks
import Gwr.Timetable.Lowering
import Gwr.Timetable.Coverage
import Gwr.Timetable.Graph
import Gwr.Timetable.Assignment
import Gwr.Timetable.Compute
import Gwr.Platform.Generator
import Gwr.Platform.Grid
import Gwr.Platform.Schema
import Gwr.Platform.Wiring
import Gwr.Platform.Entities
