import GoSpy.Console.Options
import GoSpy.Console.Json
/- One call of the command, over any system of files and programs. What it prints and its exit
   code are its outcome; what it writes is left in the system. -/
namespace GoSpy.Console

inductive ExitStatus where
  | code (code : Nat)
  | signal (number : Nat)
deriving DecidableEq, Repr

structure Ending where
  status : ExitStatus
  complaint : String
deriving DecidableEq, Repr

/-- What the command needs of its surroundings. -/
structure System (m : Type → Type) where
  isFile : Path → m Bool
  list : Path → m (Except IoError (List Path))
  read : Path → m (Except IoError String)
  write : Path → String → m (Except IoError Unit)
  execute : String → List String → m (Except IoError Ending)

structure Outcome where
  code : Nat
  stdout : String
  stderr : String
deriving DecidableEq, Repr

/- Texts -/

def signalName : Nat → String
  | 1 => " (SIGHUP)"
  | 2 => " (SIGINT)"
  | 3 => " (SIGQUIT)"
  | 4 => " (SIGILL)"
  | 5 => " (SIGTRAP)"
  | 6 => " (SIGABRT)"
  | 7 => " (SIGBUS)"
  | 8 => " (SIGFPE)"
  | 9 => " (SIGKILL)"
  | 10 => " (SIGUSR1)"
  | 11 => " (SIGSEGV)"
  | 12 => " (SIGUSR2)"
  | 13 => " (SIGPIPE)"
  | 14 => " (SIGALRM)"
  | 15 => " (SIGTERM)"
  | _ => ""

def ExitStatus.text : ExitStatus → String
  | code n => "exit status: " ++ toString n
  | signal n => "signal: " ++ toString n ++ signalName n

def trimmed (text : String) : String :=
  String.ofList (Text.dropEndWhile Text.isBlank (text.toList.dropWhile Text.isBlank))

/-- A normalizer has failed unless it ended with code 0. Its complaint is told if it has one. -/
def normalizing (program : String) : Except IoError Ending → Except String Unit
  | .error e => .error ("cannot run " ++ program ++ ": " ++ e.message)
  | .ok ending =>
    if ending.status = .code 0 then .ok ()
    else if trimmed ending.complaint = "" then
      .error (program ++ " exited with " ++ ending.status.text)
    else .error (trimmed ending.complaint)

def writtenLines (a : Written) : List String :=
  ("wrote " ++ a.path.text ++ " (" ++ toString a.spies.length
      ++ (if a.spies.length = 1 then " spy" else " spies") ++ ")")
    :: a.skipped.map fun s =>
      "  skipped " ++ s.element ++ " in " ++ s.contract ++ ": " ++ s.reason.text

def reportText (r : Report) : String :=
  Layout.unlines
    (if r.artifacts.isEmpty then ["no Go packages found"] else r.artifacts.flatMap writtenLines)

def skippedJson (s : Skipped) : Json :=
  .object [("contract", .text s.contract), ("element", .text s.element),
    ("reason", .text s.reason.text)]

def writtenJson (a : Written) : Json :=
  .object [("package", .text a.package), ("path", .text a.path.text),
    ("spies", .list (a.spies.map .text)), ("skipped", .list (a.skipped.map skippedJson))]

def reportJson (r : Report) : Json :=
  .object [("artifacts", .list (r.artifacts.map writtenJson))]

/-- Keys ascend. -/
def errorJson (e : RunError) : Json :=
  match e with
  | .load (.source s) =>
    .object [("file", .text s.file), ("kind", .text e.kind), ("line", .number s.line),
      ("message", .text s.cause.message)]
  | .load (.unreadable path _) | .write path _ | .normalize path _ =>
    .object [("kind", .text e.kind), ("message", .text e.message), ("path", .text path.text)]

/- The call -/

def done (stdout : String) : Outcome := ⟨0, stdout, ""⟩

def failed (stderr : String) : Outcome := ⟨1, "", stderr⟩

def reported (o : Options) (r : Report) : Outcome :=
  if o.quiet then done ""
  else if o.wantsJson then done ((reportJson r).pretty ++ "\n")
  else done (reportText r)

/-- A failed run is told as JSON even when the call is to be quiet. -/
def runFailed (o : Options) (e : RunError) : Outcome :=
  if o.wantsJson then failed ((errorJson e).pretty ++ "\n")
  else if o.quiet then failed ""
  else failed ("error: " ++ e.message ++ "\n")

def configFailed (o : Options) (message : String) : Outcome :=
  if o.wantsJson then failed ((Json.object [("error", .text message)]).compact ++ "\n")
  else if o.quiet then failed ""
  else failed ("error: " ++ message ++ "\n")

section

variable {m : Type → Type} [Monad m] (system : System m)

def readConfig (path : Path) : m (Except String FileSettings) := do
  match ← system.read path with
  | .error e => return .error ("could not read '" ++ path.text ++ "': " ++ e.message)
  | .ok text =>
    match FileSettings.read text with
    | some settings => return .ok settings
    | none => return .error ("could not parse '" ++ path.text ++ "': TOML parse error")

/-- A config file that is named must be there; the one in the directory may be missing. -/
def loadConfig (o : Options) : m (Except String FileSettings) := do
  match o.config with
  | some path => readConfig system ⟨path⟩
  | none =>
    let path := Path.join ⟨o.directory⟩ "fm.toml"
    if ← system.isFile path then readConfig system path else return .ok {}

def readAll : List Path → m (List (Path × Except IoError String))
  | [] => return []
  | path :: rest => do
    let text ← system.read path
    let texts ← readAll rest
    return (path, text) :: texts

def snapshot (dir : Path) : m FileSource := do
  let listed ← system.list dir
  let texts ← readAll system ((listed.toOption.getD []).filter Package.isSource)
  return ⟨fun _ => listed, fun path =>
    ((texts.find? fun t => t.1 == path).map Prod.snd).getD (.error .noEntry)⟩

def target (s : Settings) : Target m :=
  { write := system.write
    normalize :=
      if s.normalize then
        some fun path => do
          return normalizing s.normalizer (← system.execute s.normalizer ["-w", path.text])
      else none }

def generate (o : Options) : m Outcome := do
  match ← loadConfig system o with
  | .error message => return configFailed o message
  | .ok file =>
    let settings := Settings.resolve o.flags file
    let source ← snapshot system ⟨o.directory⟩
    match ← run source [settings.out] (target system settings) settings.runOptions
        ⟨o.directory⟩ with
    | .ok report => return reported o report
    | .error e => return runFailed o e

/-- Misuse ends with code 2 and is explained on the error stream by the caller. -/
def call (args : List String) : m Outcome :=
  match Request.ofArgs args with
  | .help => return done helpText
  | .version => return done versionText
  | .misuse => return ⟨2, "", ""⟩
  | .generate options => generate system options

end

end GoSpy.Console
