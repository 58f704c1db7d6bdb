import GoSpy.Config.Settings
/- The command line. Arguments are read from left to right; the first that asks for help or
   for the version, or that cannot be taken, decides. -/
namespace GoSpy.Console

structure Options where
  dir : Option String := none
  config : Option String := none
  output : Option String := none
  quiet : Bool := false
  verbose : Bool := false
  flags : Flags := {}
deriving DecidableEq, Repr

inductive Request where
  | help
  | version
  | misuse
  | generate (options : Options)
deriving DecidableEq, Repr

inductive Valued where
  | dir
  | out
  | namePrefix
  | packageSuffix
  | config
  | output
deriving DecidableEq, Repr

inductive Switch where
  | threadSafe
  | normalize
  | quiet
  | verbose
deriving DecidableEq, Repr

inductive Flag where
  | valued (option : Valued)
  | switch (switch : Switch)
  | help
  | version
deriving DecidableEq, Repr

def ofLongName : String → Option Flag
  | "dir" => some (.valued .dir)
  | "out" => some (.valued .out)
  | "prefix" => some (.valued .namePrefix)
  | "package-suffix" => some (.valued .packageSuffix)
  | "config" => some (.valued .config)
  | "output" => some (.valued .output)
  | "thread-safe" => some (.switch .threadSafe)
  | "goimports" => some (.switch .normalize)
  | "quiet" => some (.switch .quiet)
  | "verbose" => some (.switch .verbose)
  | "help" => some .help
  | "version" => some .version
  | _ => none

def ofShortName : Char → Option Flag
  | 'v' => some (.switch .verbose)
  | 'h' => some .help
  | 'V' => some .version
  | _ => none

namespace Options

/-- A value is given once at most. Paths are not empty, and there are two output formats. -/
def put (o : Options) (option : Valued) (value : String) : Option Options :=
  match option with
  | .dir => if o.dir.isSome || value = "" then none else some { o with dir := some value }
  | .config =>
    if o.config.isSome || value = "" then none else some { o with config := some value }
  | .output =>
    if o.output.isSome || !(["text", "json"].contains value) then none
    else some { o with output := some value }
  | .out =>
    if o.flags.out.isSome then none
    else some { o with flags := { o.flags with out := some value } }
  | .namePrefix =>
    if o.flags.namePrefix.isSome then none
    else some { o with flags := { o.flags with namePrefix := some value } }
  | .packageSuffix =>
    if o.flags.packageSuffix.isSome then none
    else some { o with flags := { o.flags with packageSuffix := some value } }

def turnOn (o : Options) : Switch → Option Options
  | .threadSafe =>
    if o.flags.threadSafe then none
    else some { o with flags := { o.flags with threadSafe := true } }
  | .normalize =>
    if o.flags.normalize then none
    else some { o with flags := { o.flags with normalize := true } }
  | .quiet => if o.quiet then none else some { o with quiet := true }
  | .verbose => if o.verbose then none else some { o with verbose := true }

def directory (o : Options) : String := o.dir.getD "."

def wantsJson (o : Options) : Bool := o.output == some "json"

end Options

/-- Only the package suffix may look like an option. -/
def canBeValue (option : Valued) (arg : String) : Bool :=
  option == .packageSuffix || arg = "-" || arg.toList.head? != some '-'

def shorts : List Char → Options → Except Request Options
  | [], o => .ok o
  | c :: rest, o =>
    match ofShortName c with
    | some .help => .error .help
    | some .version => .error .version
    | some (.switch s) =>
      match o.turnOn s with
      | some o => shorts rest o
      | none => .error .misuse
    | _ => .error .misuse

def splitValue (text : List Char) : List Char × Option (List Char) :=
  match text.dropWhile (· ≠ '=') with
  | [] => (text, none)
  | _ :: value => (text.takeWhile (· ≠ '='), some value)

def request : List String → Options → Request
  | [], o => .generate o
  | arg :: rest, o =>
    match arg.toList with
    | ['-', '-'] => if rest.isEmpty then .generate o else .misuse
    | '-' :: '-' :: text =>
      match splitValue text with
      | (name, value) =>
        match ofLongName (String.ofList name), value with
        | some .help, none => .help
        | some .version, none => .version
        | some (.switch s), none =>
          match o.turnOn s with
          | some o => request rest o
          | none => .misuse
        | some (.valued option), some value =>
          match o.put option (String.ofList value) with
          | some o => request rest o
          | none => .misuse
        | some (.valued option), none =>
          match rest with
          | [] => .misuse
          | value :: rest =>
            if canBeValue option value then
              match o.put option value with
              | some o => request rest o
              | none => .misuse
            else .misuse
        | _, _ => .misuse
    | '-' :: c :: more =>
      match shorts (c :: more) o with
      | .ok o => request rest o
      | .error r => r
    | _ => .misuse

def Request.ofArgs (args : List String) : Request := request args {}

def helpText : String := Layout.unlines
  ["Spy generator for Go interfaces",
   "",
   "Usage: fm [OPTIONS]",
   "",
   "Options:",
   "      --dir <DIR>",
   "          Directory to scan for Go source files [default: .]",
   "      --out <OUT>",
   "          File name of the generated artifact [default: fm_test.go]",
   "      --prefix <PREFIX>",
   "          Spy type name prefix [default: Fake]",
   "      --package-suffix <PACKAGE_SUFFIX>",
   "          Suffix appended to the package name of the artifact [default: _test]",
   "      --thread-safe",
   "          Guard every spy method with a mutex",
   "      --goimports",
   "          Run goimports on every written artifact",
   "      --config <CONFIG>",
   "          Config file [default: <dir>/fm.toml when present]",
   "      --output <OUTPUT>",
   "          Output format (text or json) [default: text] [possible values: text, json]",
   "      --quiet",
   "          Suppress non-essential output",
   "  -v, --verbose",
   "          Log per-file and per-spy detail to stderr",
   "  -h, --help",
   "          Print help",
   "  -V, --version",
   "          Print version"]

def versionText : String := "fm version 1.1.0\n"

end GoSpy.Console
