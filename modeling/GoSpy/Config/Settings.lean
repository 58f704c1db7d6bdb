import GoSpy.Config.Toml
import GoSpy.Run.Plan
/- Settings of a run. A flag of the command line wins over the config file, and the config
   file over the defaults. -/
namespace GoSpy

structure FileSettings where
  out : Option String := none
  namePrefix : Option String := none
  packageSuffix : Option String := none
  threadSafe : Option Bool := none
  normalize : Option Bool := none
  normalizer : Option String := none
deriving DecidableEq, Repr

/-- The values given on the command line; a switch can only be turned on. -/
structure Flags where
  out : Option String := none
  namePrefix : Option String := none
  packageSuffix : Option String := none
  threadSafe : Bool := false
  normalize : Bool := false
deriving DecidableEq, Repr

structure Settings where
  out : String
  namePrefix : String
  packageSuffix : String
  threadSafe : Bool
  normalize : Bool
  normalizer : String
deriving DecidableEq, Repr

namespace FileSettings

def text? : Toml.Value → Option String
  | .text text => some text
  | _ => none

def switch? : Toml.Value → Option Bool
  | .switch on => some on
  | _ => none

def put (s : FileSettings) (key : String) (value : Toml.Value) : Option FileSettings :=
  match key with
  | "out" => (text? value).map fun v => { s with out := some v }
  | "prefix" => (text? value).map fun v => { s with namePrefix := some v }
  | "package_suffix" => (text? value).map fun v => { s with packageSuffix := some v }
  | "thread_safe" => (switch? value).map fun v => { s with threadSafe := some v }
  | "goimports" => (switch? value).map fun v => { s with normalize := some v }
  | "goimports_bin" => (text? value).map fun v => { s with normalizer := some v }
  | _ => none

def putAll (s : FileSettings) : List (String × Toml.Value) → Option FileSettings
  | [] => some s
  | (key, value) :: rest => do
    let s ← s.put key value
    s.putAll rest

/-- A key may be given once. -/
def ofPairs (pairs : List (String × Toml.Value)) : Option FileSettings :=
  if (pairs.map Prod.fst).eraseDups.length = pairs.length then putAll {} pairs else none

def fieldNames : List String :=
  ["out", "prefix", "package_suffix", "thread_safe", "goimports", "goimports_bin"]

/-- Values without keys stand for all settings in order; more values are not looked at. -/
def ofValues (values : List Toml.Value) : Option FileSettings :=
  if values.length < fieldNames.length then none else ofPairs (fieldNames.zip values)

def sectionPair : Toml.Line → Option (String × Toml.Value)
  | .entry [key] value => some (key, value)
  | _ => none

def dottedPair : Toml.Line → Option (String × Toml.Value)
  | .entry ["generate", key] value => some (key, value)
  | _ => none

def inlinePair : List String × Toml.Value → Option (String × Toml.Value)
  | ([key], value) => some (key, value)
  | _ => none

/-- There is one section, and one of four ways to write it: under its header, as a table or a
    list on one line, or by dotted keys. A second way would define the section again. -/
def ofLines : List Toml.Line → Option FileSettings
  | [] => some {}
  | .header ["generate"] :: rest => (rest.mapM sectionPair).bind ofPairs
  | [.entry ["generate"] (.table entries)] => (entries.mapM inlinePair).bind ofPairs
  | [.entry ["generate"] (.list values)] => ofValues values
  | lines => (lines.mapM dottedPair).bind ofPairs

def read (text : String) : Option FileSettings := (Toml.read text).bind ofLines

end FileSettings

namespace Settings

def resolve (flags : Flags) (file : FileSettings) : Settings :=
  { out := (flags.out <|> file.out).getD "fm_test.go"
    namePrefix := (flags.namePrefix <|> file.namePrefix).getD "Fake"
    packageSuffix := (flags.packageSuffix <|> file.packageSuffix).getD "_test"
    threadSafe := flags.threadSafe || file.threadSafe.getD false
    normalize := flags.normalize || file.normalize.getD false
    normalizer := file.normalizer.getD "goimports" }

def runOptions (s : Settings) : RunOptions :=
  ⟨⟨s.namePrefix, s.threadSafe⟩, s.out, s.packageSuffix⟩

end Settings

end GoSpy
