import Shiva.Bytes
import Shiva.Elf
import Shiva.Libelf
import Shiva.SegmentCopy
import Shiva.Os
import Shiva.Scan
import Shiva.Prelink
import Shiva.Rewrite
import Shiva.Output
import Shiva.Layout
import Shiva.Image
import Shiva.Roundtrip
import Shiva.Placement
import Shiva.Frame
import Shiva.Loader
import Shiva.Commit
import Shiva.Outcome
import Shiva.Rerun
import Shiva.Main
