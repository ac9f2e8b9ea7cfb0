import ProxyAuth.Endpoint
import ProxyAuth.Session
import ProxyAuth.Settings
import Std.Time.DateTime.Timestamp

/-!
# The program

Serves one connection, on standard input and output, for a listener that starts the program per
connection and passes both ends in `TCPREMOTEIP`, `TCPREMOTEPORT` and `TCPLOCALPORT`.  Events above
the level of debugging go to standard error.
-/

namespace ProxyAuth.Program

/-- The files of the given names. -/
def readFiles (names : List Text) : IO Files := do
  let entries ← names.mapM fun name => do
    try return (name, some (← IO.FS.readBinFile (String.ofList name)).toList)
    catch _ => return (name, none)
  return fun name => (entries.lookup name).join

/-- What both clocks show now. -/
def readClocks : IO Clocks := do
  let wall ← Std.Time.Timestamp.now
  return ⟨⟨wall.toNanosecondsSinceUnixEpoch.toInt⟩, ⟨← IO.monoNanosNow⟩⟩

/-- Report the events that are not for debugging. -/
def report (events : List Event) : IO Unit :=
  events.forM fun e =>
    if e.line.level = .debug then pure () else IO.eprintln (String.ofList e.render)

/-- Write pages to standard output. -/
def write (pages : List Text) : IO Unit := do
  let output ← IO.getStdout
  output.write ⟨(Utf8.encode pages.flatten).toArray⟩
  output.flush

/-- Serve heads as they arrive, until the session stops or the peer closes. -/
partial def serve (policy : Policy) (link : Link) (known : ExpiringSet) (buffer : Bytes) :
    IO Unit := do
  let finish (ending : Feed.Ending) : IO Unit := report [Session.endEvent ending]
  match Feed.nextFrom buffer [] with
  | .head head rest =>
      let moment : Moment := ⟨← readClocks, none⟩
      match (Session.start known).serveHead policy link moment head with
      | .goesOn s =>
          write s.written
          report s.events
          serve policy link s.known rest.buffer
      | .stops s =>
          write s.written
          report s.events
  | .ended .tooLarge => finish .tooLarge
  | .ended ending =>
      let portion ← (← IO.getStdin).read (.ofNat Feed.portionLength)
      if portion.isEmpty then finish ending
      else serve policy link known (buffer ++ portion.toList)

/-- The connection that the environment describes, by default one from this host to the port of
the listening address. -/
def readLink (settings : Settings) : IO Link := do
  let port? (name : String) : IO (Option UInt16) := do
    return (← IO.getEnv name).bind fun s => Endpoint.port? s.toList
  let address := (← IO.getEnv "TCPREMOTEIP").bind fun s => Address.parse? s.toList
  let remote : Endpoint := ⟨address.getD (.v4 0x7f000001), (← port? "TCPREMOTEPORT").getD 0⟩
  let listening := (Endpoint.parse? settings.listen).map (·.port)
  return ⟨remote, ((← port? "TCPLOCALPORT").or listening).getD 0⟩

/-- The settings of a command line; the file it names is read first. -/
def readSettings (arguments : List Text) : IO (Except Settings.Fault Settings) := do
  let named := match CommandLine.parse arguments with
    | .ok given => (given.get? .settings).toList
    | .error _ => []
  return Settings.ofArguments (← readFiles named) arguments

end ProxyAuth.Program

open ProxyAuth ProxyAuth.Program in
/-- Exits with 2 for a bad command line and with 1 for every other fault of the setup. -/
def main (arguments : List String) : IO UInt32 := do
  let failure (message : Text) : IO Unit := IO.eprintln ("Error: " ++ String.ofList message)
  match ← readSettings (arguments.map String.toList) with
  | .error fault =>
      failure fault.message
      return match fault with
        | .usage _ => 2
        | _ => 1
  | .ok settings =>
      let source := settings.source
      match source.build (← readFiles [source.file]) with
      | .error fault =>
          failure fault.message
          return 1
      | .ok policy =>
          serve policy (← readLink settings) (.empty policy.lifetime) []
          return 0
