import GoSpy.Disk.Tree
import GoSpy.Console.Session
/- Shell scripts of plain commands, as they stand in for an import normalizer: words with
   quotes and parameters, redirections, and commands joined by line ends, `;`, `&&` and `||`.
   There are no variables, pipes or control structures. -/
namespace GoSpy.Script

open Console (ExitStatus Ending)

inductive Part where
  | text (text : String)
  | arg (index : Nat)
  | args
  | count
  | status
  | self

inductive Symbol where
  | word (parts : List Part)
  | next
  | andThen
  | orElse
  | redirect (stream : Nat) (append : Bool)
  | duplicate (stream target : Nat)

/- Symbols of a script -/

def isPlain (c : Char) : Bool := !" \t\n\r;&|<>\"'\\$#".toList.contains c

def parameter : List Char → Part × List Char
  | '@' :: rest => (.args, rest)
  | '*' :: rest => (.args, rest)
  | '#' :: rest => (.count, rest)
  | '?' :: rest => (.status, rest)
  | '$' :: rest => (.self, rest)
  | '{' :: d :: '}' :: rest =>
    if d.isDigit then (.arg (d.toNat - '0'.toNat), rest) else (.text "", rest)
  | c :: rest => if c.isDigit then (.arg (c.toNat - '0'.toNat), rest) else (.text "$", c :: rest)
  | [] => (.text "$", [])

def quotedParts : Nat → List Char → List Part × List Char
  | 0, rest => ([], rest)
  | _, [] => ([], [])
  | fuel + 1, c :: rest =>
    if c = '"' then ([], rest)
    else if c = '$' then
      let (part, rest) := parameter rest
      let (parts, rest) := quotedParts fuel rest
      (part :: parts, rest)
    else
      let (text, rest) := match c, rest with
        | '\\', e :: more =>
          if "\"\\$".toList.contains e then (e.toString, more)
          else ("\\" ++ e.toString, more)
        | c, rest => (c.toString, rest)
      let (parts, rest) := quotedParts fuel rest
      (.text text :: parts, rest)

def wordParts : Nat → List Char → List Part × List Char
  | 0, rest => ([], rest)
  | _, [] => ([], [])
  | fuel + 1, c :: rest =>
    if c = '"' then
      let (parts, rest) := quotedParts rest.length rest
      let (more, rest) := wordParts fuel rest
      (.text "" :: parts ++ more, rest)
    else if c = '\x27' then
      let text := rest.takeWhile (· ≠ '\x27')
      let (more, rest) := wordParts fuel ((rest.dropWhile (· ≠ '\x27')).drop 1)
      (.text (String.ofList text) :: more, rest)
    else if c = '$' then
      let (part, rest) := parameter rest
      let (more, rest) := wordParts fuel rest
      (part :: more, rest)
    else if c = '\\' then
      let (more, tail) := wordParts fuel (rest.drop 1)
      (.text (String.ofList (rest.take 1)) :: more, tail)
    else if isPlain c || c = '#' then
      let (more, rest) := wordParts fuel rest
      (.text c.toString :: more, rest)
    else ([], c :: rest)

def stream? : List Char → Option Nat
  | '1' :: _ => some 1
  | '2' :: _ => some 2
  | _ => none

def redirection (stream : Nat) : List Char → Symbol × List Char
  | '&' :: rest => (.duplicate stream ((stream? rest).getD 1), rest.drop 1)
  | '>' :: rest => (.redirect stream true, rest)
  | rest => (.redirect stream false, rest)

def symbols : Nat → List Char → List Symbol
  | 0, _ => []
  | _, [] => []
  | fuel + 1, c :: rest =>
    match c, rest with
    | '\n', _ | ';', _ => .next :: symbols fuel rest
    | '#', _ => symbols fuel (rest.dropWhile (· ≠ '\n'))
    | '&', '&' :: rest => .andThen :: symbols fuel rest
    | '|', '|' :: rest => .orElse :: symbols fuel rest
    | '>', _ =>
      let (symbol, rest) := redirection 1 rest
      symbol :: symbols fuel rest
    | '1', '>' :: rest =>
      let (symbol, rest) := redirection 1 rest
      symbol :: symbols fuel rest
    | '2', '>' :: rest =>
      let (symbol, rest) := redirection 2 rest
      symbol :: symbols fuel rest
    | _, _ =>
      match wordParts (rest.length + 1) (c :: rest) with
      | ([], _) => symbols fuel rest
      | (parts, rest) => .word parts :: symbols fuel rest

/- Running -/

inductive Sink where
  | nowhere
  | complaint
  | file (path : Path)

structure State where
  disk : Disk
  complaint : String
  status : Nat

structure Command where
  words : List (List Part)
  redirections : List (Symbol × List Part)

def fields (args : List String) (s : State) (parts : List Part) : List String :=
  let text : Part → String
    | .text text => text
    | .arg index => args[index]?.getD ""
    | .args => " ".intercalate (args.drop 1)
    | .count => toString (args.length - 1)
    | .status => toString s.status
    | .self => "$$"
  match parts with
  | [.args] | [.text "", .args] => args.drop 1
  | [.arg index] => (args[index]?.filter (· ≠ "")).toList
  | parts => [String.join (parts.map text)]

def escapes : List Char → List Char
  | '\\' :: 'n' :: rest => '\n' :: escapes rest
  | '\\' :: 't' :: rest => '\t' :: escapes rest
  | '\\' :: 'r' :: rest => '\r' :: escapes rest
  | '\\' :: '\\' :: rest => '\\' :: escapes rest
  | c :: rest => c :: escapes rest
  | [] => []

/-- A format with its text fields filled in, and the texts that are left. A field without a
    text stays empty. -/
def filled : List Char → List String → List Char × List String
  | '%' :: '%' :: rest, args =>
    let r := filled rest args
    ('%' :: r.1, r.2)
  | '%' :: c :: rest, args =>
    if c = 's' || c = 'd' then
      let r := filled rest args.tail
      ((args.headD "").toList ++ r.1, r.2)
    else
      let r := filled rest args
      ('%' :: c :: r.1, r.2)
  | c :: rest, args =>
    let r := filled rest args
    (c :: r.1, r.2)
  | [], args => ([], args)

/-- The format is used again as long as it takes texts and some are left. -/
def formatted : Nat → List Char → List String → List Char
  | 0, _, _ => []
  | fuel + 1, format, args =>
    match filled format args with
    | (text, []) => text
    | (text, left) =>
      if left.length < args.length then text ++ formatted fuel format left else text

structure Effect where
  disk : Disk
  stdout : String := ""
  stderr : String := ""
  status : Nat := 0

def concatenated (d : Disk) (paths : List String) : Effect :=
  paths.foldl (fun e path =>
    match d.read ⟨path⟩ with
    | .ok text => { e with stdout := e.stdout ++ text }
    | .error _ =>
      { e with
        stderr := e.stderr ++ "cat: " ++ path ++ ": No such file or directory\n", status := 1 })
    ⟨d, "", "", 0⟩

def removed (d : Disk) (paths : List String) : Disk :=
  paths.foldl (fun d path =>
    match d.locate ⟨path⟩ with
    | .ok (.file place ..) => d.remove place
    | _ => d) d

def copied (d : Disk) (source target : String) : Effect :=
  match d.readBytes ⟨source⟩, d.locate ⟨target⟩ with
  | .ok bytes, .ok (.file place _ executable) =>
    { disk := d.put place (.file bytes executable) }
  | .ok bytes, .ok (.free place) => { disk := d.put place (.file bytes false) }
  | _, _ => { disk := d, status := 1 }

def moved (d : Disk) (source target : String) : Effect :=
  let e := copied d source target
  if e.status = 0 then { e with disk := removed e.disk [source] } else e

def isThere (d : Disk) (path : String) : Bool :=
  match d.locate ⟨path⟩ with
  | .ok (.file ..) | .ok (.directory _) | .ok .null => true
  | _ => false

def holds (d : Disk) : List String → Bool
  | ["-f", path] => d.isFile ⟨path⟩
  | ["-e", path] => isThere d path
  | ["-n", text] => text != ""
  | ["-z", text] => text == ""
  | [a, "=", b] | [a, "-eq", b] => a == b
  | [a, "!=", b] | [a, "-ne", b] => a != b
  | "!" :: rest => !holds d rest
  | [text] => text != ""
  | _ => false

def tested (d : Disk) (condition : List String) : Effect :=
  { disk := d, status := if holds d condition then 0 else 1 }

def effectOf (d : Disk) (script : String) : List String → Effect
  | [] | "true" :: _ | ":" :: _ | "set" :: _ | "sleep" :: _ => { disk := d }
  | "false" :: _ => { disk := d, status := 1 }
  | "echo" :: "-n" :: args => { disk := d, stdout := " ".intercalate args }
  | "echo" :: args =>
    { disk := d
      stdout := String.ofList (escapes (" ".intercalate args).toList) ++ "\n" }
  | "printf" :: format :: args =>
    { disk := d
      stdout := String.ofList (formatted (args.length + 1) (escapes format.toList) args) }
  | "cat" :: paths => concatenated d paths
  | "rm" :: paths => { disk := removed d paths }
  | ["cp", source, target] => copied d source target
  | ["mv", source, target] => moved d source target
  | "test" :: condition => tested d condition
  | "[" :: condition => tested d condition.dropLast
  | name :: _ => { disk := d, stderr := script ++ ": " ++ name ++ ": not found\n", status := 127 }

def emptied (d : Disk) (append : Bool) (path : Path) : Disk :=
  if append && d.isFile path then d else ((d.write path "").toOption).getD d

def redirected (args : List String) (s : State) (sinks : Sink × Sink) :
    Symbol × List Part → (Sink × Sink) × State
  | (.duplicate 1 2, _) => ((sinks.2, sinks.2), s)
  | (.duplicate 2 1, _) => ((sinks.1, sinks.1), s)
  | (.redirect stream append, parts) =>
    let path : Path := ⟨String.join (fields args s parts)⟩
    let sinks := if stream = 2 then (sinks.1, .file path) else (.file path, sinks.2)
    (sinks, { s with disk := emptied s.disk append path })
  | _ => (sinks, s)

def redirectAll (args : List String) :
    List (Symbol × List Part) → (Sink × Sink) × State → (Sink × Sink) × State
  | [], state => state
  | r :: rest, (sinks, s) => redirectAll args rest (redirected args s sinks r)

def pour (s : State) (text : String) : Sink → State
  | .nowhere => s
  | .complaint => { s with complaint := s.complaint ++ text }
  | .file path =>
    let before := (s.disk.read path).toOption.getD ""
    { s with disk := ((s.disk.write path (before ++ text)).toOption).getD s.disk }

def runCommand (args : List String) (c : Command) (s : State) : State :=
  let words := c.words.flatMap (fields args s)
  let ((out, err), s) := redirectAll args c.redirections ((.nowhere, .complaint), s)
  let e := effectOf s.disk (args.headD "") words
  let s := { s with disk := e.disk, status := e.status }
  pour (pour s e.stdout out) e.stderr err

def command : List Symbol → Command × List Symbol
  | .word parts :: rest =>
    let (c, rest) := command rest
    ({ c with words := parts :: c.words }, rest)
  | .redirect stream append :: .word parts :: rest =>
    let (c, rest) := command rest
    ({ c with redirections := (.redirect stream append, parts) :: c.redirections }, rest)
  | .duplicate stream target :: rest =>
    let (c, rest) := command rest
    ({ c with redirections := (.duplicate stream target, []) :: c.redirections }, rest)
  | rest => (⟨[], []⟩, rest)

def signalNumber (name : String) : Nat :=
  match name with
  | "-KILL" | "-SIGKILL" => 9
  | "-TERM" | "-SIGTERM" => 15
  | "-HUP" | "-SIGHUP" => 1
  | "-INT" | "-SIGINT" => 2
  | name => (String.ofList (name.toList.drop 1)).toNat?.getD 15

def ending? (s : State) : List String → Option ExitStatus
  | "exit" :: code :: _ => some (.code (code.toNat?.getD 2 % 256))
  | ["exit"] => some (.code s.status)
  | ["kill", signal, "$$"] => some (.signal (signalNumber signal))
  | _ => none

def runAll (args : List String) : Nat → Bool → List Symbol → State → Disk × Ending
  | 0, _, _, s => (s.disk, ⟨.code s.status, s.complaint⟩)
  | _, _, [], s => (s.disk, ⟨.code s.status, s.complaint⟩)
  | fuel + 1, _, .next :: rest, s => runAll args fuel false rest s
  | fuel + 1, _, .andThen :: rest, s => runAll args fuel (s.status != 0) rest s
  | fuel + 1, _, .orElse :: rest, s => runAll args fuel (s.status == 0) rest s
  | fuel + 1, skip, first :: others, s =>
    let (c, rest) := command (first :: others)
    let rest := if rest.length < others.length + 1 then rest else others
    if skip then runAll args fuel false rest s
    else
      match ending? s (c.words.flatMap (fields args s)) with
      | some status => (s.disk, ⟨status, s.complaint⟩)
      | none => runAll args fuel false rest (runCommand args c s)

/-- Runs the text of a script; the first argument is its own name. -/
def run (text : String) (args : List String) (d : Disk) : Disk × Ending :=
  let symbols := symbols text.length text.toList
  runAll args (symbols.length + 1) false symbols ⟨d, "", 0⟩

end GoSpy.Script
