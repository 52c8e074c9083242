import Outline.Source

/-! # The command line

Arguments are read from left to right, and the first that is wrong, or that asks for the version or
for help, settles the answer. Otherwise the command lists the formats or renders a source, and only
then is the source read. All this is pure; the program only reads and prints.
-/
namespace Outline.CommandLine
set_option autoImplicit false

structure Options where
  path : Option String := none
  format : Option String := none
  stats : Bool := false
  listFormats : Bool := false
deriving DecidableEq, Repr

inductive Stop where
  | version
  | help
  | usage
deriving DecidableEq, Repr

abbrev Reading := Except Stop

namespace Options

/-- No option may be given twice. -/
def setFormat (o : Options) (value : String) : Reading Options :=
  if o.format.isSome then .error .usage else .ok { o with format := some value }

def setStats (o : Options) : Reading Options :=
  if o.stats then .error .usage else .ok { o with stats := true }

def setListFormats (o : Options) : Reading Options :=
  if o.listFormats then .error .usage else .ok { o with listFormats := true }

def setPath (o : Options) (path : String) : Reading Options :=
  if o.path.isSome then .error .usage else .ok { o with path := some path }

/-- All arguments are paths. -/
def readPaths (o : Options) : List String → Reading Options
  | [] => .ok o
  | path :: rest => do readPaths (← o.setPath path) rest

end Options

/-- A dash alone stands for the standard input and is no option. -/
def isOption (argument : String) : Bool :=
  argument.startsWith "-" && argument != "-"

/-- What a single option asks for. -/
inductive Request where
  | done (options : Options)
  | needsFormat

def readLong (o : Options) (body : List Char) : Reading Request :=
  let name := String.ofList (body.takeWhile (· != '='))
  let value := (body.dropWhile (· != '=')).tail?.map String.ofList
  match name, value with
  | "format", some value => (o.setFormat value).map .done
  | "format", none => .ok .needsFormat
  | "stats", none => o.setStats.map .done
  | "list-formats", none => o.setListFormats.map .done
  | "version", none => .error .version
  | "help", none => .error .help
  | _, _ => .error .usage

def readShort (o : Options) (letters : List Char) : Reading Request :=
  match letters with
  | 'V' :: _ => .error .version
  | 'h' :: _ => .error .help
  | ['f'] => .ok .needsFormat
  | 'f' :: '=' :: value => (o.setFormat (String.ofList value)).map .done
  | 'f' :: value => (o.setFormat (String.ofList value)).map .done
  | _ => .error .usage

def readOption (o : Options) (argument : List Char) : Reading Request :=
  match argument with
  | '-' :: '-' :: body => readLong o body
  | '-' :: letters => readShort o letters
  | _ => .error .usage

def read (o : Options) : List String → Reading Options
  | [] => .ok o
  | "--" :: rest => o.readPaths rest
  | argument :: rest =>
    if isOption argument then
      match readOption o argument.toList with
      | .error stop => .error stop
      | .ok (.done o) => read o rest
      | .ok .needsFormat =>
        match rest with
        | [] => .error .usage
        | value :: rest =>
          if isOption value then .error .usage
          else
            match o.setFormat value with
            | .error stop => .error stop
            | .ok o => read o rest
    else
      match o.setPath argument with
      | .error stop => .error stop
      | .ok o => read o rest

inductive Input where
  | standardInput
  | file (path : String)
deriving DecidableEq, Repr

structure Outcome where
  code : Nat
  stdout : String := ""
  stderr : String := ""
deriving DecidableEq, Repr

/-- An answer, or the input that has to be read first. -/
inductive Plan where
  | answer (outcome : Outcome)
  | read (input : Input) (respond : Except ReadError ByteArray → Outcome)

def version : String := "mindmark 0.1.0\n"

def helpLines : List String :=
  ["A tool for inspecting mindmark outlines",
    "",
    "Usage: mindmark [OPTIONS] [path]",
    "",
    "Arguments:",
    "  [path]  Path to the mindmark file, or '-' for stdin",
    "",
    "Options:",
    "  -f, --format <format>  Output format (see --list-formats) [default: debug]",
    "      --stats            Print token, statement and error counts to stderr",
    "      --list-formats     List available output formats",
    "  -h, --help             Print help",
    "  -V, --version          Print version"]

def help : String := String.join (helpLines.map (· ++ "\n"))

def usage : String := "Usage: mindmark [OPTIONS] [path]\n"

def formatList : String :=
  "Available formats:\n\n" ++
    String.join (Format.all.map fun f => "  " ++ f.name ++ "\n    " ++ f.description ++ "\n\n")

def failure (error : SourceError) : Outcome :=
  let hint :=
    match error with
    | .unknownFormat _ =>
      "\nAvailable formats: " ++ ", ".intercalate (Format.all.map Format.name) ++ "\n"
    | .unreadable _ => ""
  { code := 1, stderr := "Error: " ++ error.message ++ "\n" ++ hint }

def statistics (d : Document) : String :=
  toString d.tokens.length ++ " tokens, " ++ toString d.statementCount ++ " statements, " ++
    toString d.errors.length ++ " errors\n"

def trimLineFeeds (s : String) : String :=
  String.ofList (s.toList.reverse.dropWhile (· == '\n')).reverse

/-- Renders a document; exactly one line feed ends the output. -/
def success (format : Format) (stats : Bool) (d : Document) : Outcome :=
  { code := 0
    stdout := trimLineFeeds (format.render d) ++ "\n"
    stderr := if stats then statistics d else "" }

def respond (format : Format) (stats : Bool) (bytes : Except ReadError ByteArray) : Outcome :=
  match Source.ofBytes bytes with
  | .error error => failure error
  | .ok source => success format stats (Document.parse source)

/-- The name of the format is checked before anything is read. -/
def Options.plan (o : Options) : Plan :=
  if o.listFormats then .answer { code := 0, stdout := formatList }
  else
    match o.path with
    | none => .answer { code := 2, stderr := usage }
    | some path =>
      match Source.format (o.format.getD "debug") with
      | .error error => .answer (failure error)
      | .ok format =>
        .read (if path = "-" then .standardInput else .file path) (respond format o.stats)

def plan (arguments : List String) : Plan :=
  match read {} arguments with
  | .ok options => options.plan
  | .error .version => .answer { code := 0, stdout := version }
  | .error .help => .answer { code := 0, stdout := help }
  | .error .usage => .answer { code := 2, stderr := usage }

end Outline.CommandLine
