import Bpfstream.Go.Basic
import Bpfstream.Go.Strconv
import Bpfstream.Go.Time
import Bpfstream.Go.Scanner
import Bpfstream.Go.Json
import Bpfstream.Go.Logfmt
import Bpfstream.Go.Sort
import Bpfstream.Go.Encode
import Bpfstream.Go.Log
import Bpfstream.Parser
import Bpfstream.VfsRaw
import Bpfstream.Count
import Bpfstream.RawEvents
import Bpfstream.Action
import Bpfstream.Render
import Bpfstream.Reasoning.Streams
import Bpfstream.Reasoning.Aggregate
import Bpfstream.Reasoning.Order
import Bpfstream.Reasoning.StartTime
import Bpfstream.Reasoning.Dispatch
import Bpfstream.Reasoning.Panics
import Bpfstream.Reasoning.Payload
import Bpfstream.Reasoning.Delivery
import Bpfstream.Reasoning.Insertion
import Bpfstream.Reasoning.WireFormat
import Bpfstream.Reasoning.Equivalence
import Bpfstream.Reasoning.Overflow
import Bpfstream.Reasoning.RawImport
import Bpfstream.Reasoning.LivePrint
import Bpfstream.Reasoning.JsonOutput
import Bpfstream.Reasoning.ValidStrings
import Bpfstream.Reasoning.JsonStdout
import Bpfstream.Reasoning.CsvOutput
