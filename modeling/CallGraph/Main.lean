import CallGraph.CommandLine
import CallGraph.Connection

/-!
**The program.**

Looks at the files that a query can come across, asks the library for the answer, and shows it. All
that is decided is decided there.
-/

namespace CallGraph.Main

/-- The path of a place. -/
def pathOf (place : List String) : String :=
  "/" ++ "/".intercalate place

/-- Whether the text of a file below a folder can matter: that of a source or a manifest. -/
def matters (name : String) : Bool :=
  Program.isSource name || name = "Cargo.toml"

/-- The text of a file. -/
def readFile (path : String) : IO Entry := do
  return .file (String.fromUTF8? (← IO.FS.readBinFile path))

/-- What lies at a path, with all that can matter below it. -/
partial def lookAt (path : String) : IO Entry := do
  let found ← IO.FS.realPath path
  if ← found.isDir then
    let mut children := #[]
    for child in ← found.readDir do
      let name := child.fileName
      let e ←
        try
          if Program.isLeftOut name then pure (.folder [])
          else if matters name then lookAt (Path.join path name)
          else if ← child.path.isDir then lookAt (Path.join path name)
          else pure (.file none)
        catch _ => pure (.file none)
      children := children.push (name, e)
    return .folder children.toList
  else readFile path

/-- Whether there is a folder, a file or nothing at a path; without what it holds. -/
def glance (path : String) : IO (Option Entry) := do
  let found ← IO.FS.realPath path
  if ← found.isDir then return some (.folder [])
  if ← found.pathExists then return some (.file none)
  return none

/-- A tree with all that looking a path up can come across. -/
def look (fs : Files) (path : String) : IO Files := do
  let mut known := fs
  for place in fs.through path do
    if let some e ← (try glance (pathOf place) catch _ => pure none) then
      known := known.offer place e
  if let some place := (fs.through path).getLast? then
    try
      known := known.replaceAt place (← lookAt (pathOf place))
    catch _ => pure ()
  return known

/-- The working folder, and nothing else. The build tool is not asked for anything. -/
def workingFolder : IO Files := do
  let here := Files.names (← IO.currentDir).toString
  let nothing : Files := { top := .folder [], here := here }
  return nothing.offer here (.folder [])

/-- A tree with all that a query can come across. -/
def lookFor (fs : Files) (r : Request) : IO Files := do
  match r.validate with
  | .error _ => return fs
  | .ok plan =>
    plan.build.moduleArgs.foldlM (fun fs argument =>
      look fs (Program.pathOf plan.build argument)) fs

/-- Writes the file that a run has written. -/
def writeOutput (o : GraphOptions) (outcome : Outcome) : IO Unit := do
  if let some path := o.output then
    if outcome.exit = 0 then
      if let .ok content := outcome.files.readText path then
        IO.FS.writeFile path content

/-- Shows the warnings of a run, and all its other notes to those who ask for them. -/
def showNotes (debug : Bool) (notes : List Note) : IO Unit := do
  for n in notes do
    if n.isWarning || debug then IO.eprintln ("[" ++ n.level debug ++ "] " ++ n.text)

/-- Carries out `graph`. -/
def graph (o : GraphOptions) : IO UInt32 := do
  let started ← IO.monoMsNow
  let mut fs ← workingFolder
  if let some path := o.config then fs ← look fs path
  if let some path := o.output then fs ← look fs path
  if let .ok request := CommandLine.requestOf fs o then fs ← lookFor fs request
  let outcome := CommandLine.graph fs o
  showNotes o.debug outcome.notes
  writeOutput o outcome
  IO.print outcome.output
  for message in (outcome.timed ((← IO.monoMsNow) - started)).messages do
    IO.eprintln message
  return UInt32.ofNat outcome.exit

/-- The bytes up to the next line break, that included, behind those that are read already. -/
partial def readLine (input : IO.FS.Stream) (front : ByteArray := .empty) : IO (List UInt8) := do
  let next ← input.read 1
  if next.isEmpty then return front.toList
  if next.data.contains Text.lineBreak then return (front ++ next).toList
  readLine input (front ++ next)

/-- A connection over two streams, with the flag that stops the server. -/
def portOf (fs : Files) (input output : IO.FS.Stream) (flag : IO.Ref Bool) : Port IO where
  readLine := readLine input
  files line :=
    match Session.request? line with
    | some request => lookFor fs request
    | none => return fs
  voice _ := {}
  stopping := flag.get
  clock := IO.monoMsNow
  write text := do
    output.putStr text
    output.flush
  stop := flag.set true

/-- Serves a connection up to its end. -/
partial def serve (p : Port IO) : IO Unit := do
  if ← p.turn then serve p

/-- Carries out what the arguments ask for. -/
def run (arguments : List String) : IO UInt32 := do
  match Invocation.ofArguments arguments with
  | .ok (.graph o) => graph o
  | .ok (.serve _) =>
    serve (portOf (← workingFolder) (← IO.getStdin) (← IO.getStdout) (← IO.mkRef false))
    return 0
  | .error why =>
    let outcome := CommandLine.stopped (← workingFolder) why
    IO.print outcome.output
    for message in outcome.messages do
      IO.eprint message
    return UInt32.ofNat outcome.exit

end CallGraph.Main

def main (arguments : List String) : IO UInt32 :=
  CallGraph.Main.run arguments
