import LivePages.Site.Publication

namespace LivePages

inductive CommandRequest where
  | build (options : SiteOptions)
  | help
  | version
  | misuse
  deriving DecidableEq

inductive ValueOption where
  | site
  | out
  | assets
  | settings
  deriving DecidableEq

namespace ValueOption

def ofName? : String → Option ValueOption
  | "site" => some site
  | "out" => some out
  | "assets" => some assets
  | "config" => some settings
  | _ => none

def ofLetter? : Char → Option ValueOption
  | 'o' => some out
  | 'c' => some settings
  | _ => none

end ValueOption

structure CommandOptions where
  site : Option String
  out : Option String
  assets : Option String
  settings : Option String
  verbose : Bool

namespace CommandOptions

def empty : CommandOptions :=
  ⟨none, none, none, none, false⟩

/-- Gives an option its value, which is not empty; no option has two. -/
def set (o : CommandOptions) (option : ValueOption) (value : String) : Option CommandOptions :=
  if value == "" then none
  else
    match option with
    | .site => if o.site.isSome then none else some { o with site := some value }
    | .out => if o.out.isSome then none else some { o with out := some value }
    | .assets => if o.assets.isSome then none else some { o with assets := some value }
    | .settings => if o.settings.isSome then none else some { o with settings := some value }

def setVerbose (o : CommandOptions) : Option CommandOptions :=
  if o.verbose then none else some { o with verbose := true }

def request (o : CommandOptions) : CommandRequest :=
  match o.site, o.out, o.assets with
  | some site, some out, some assets => .build ⟨site, out, assets, o.settings⟩
  | _, _, _ => .misuse

end CommandOptions

/-- What one argument leads to: a request at once, an option that waits for its value, or more
options. -/
inductive ArgumentStep where
  | done (request : CommandRequest)
  | awaits (option : ValueOption) (options : CommandOptions)
  | go (options : CommandOptions)

def ArgumentStep.ofOptions : Option CommandOptions → ArgumentStep
  | some options => go options
  | none => done .misuse

/-- An option by its name, perhaps with a value behind an equals sign. -/
def readNamed (o : CommandOptions) (text : List Char) : ArgumentStep :=
  let name := String.ofList (text.takeWhile (· != '='))
  match text.dropWhile (· != '=') with
  | [] =>
    match name, ValueOption.ofName? name with
    | _, some option => .awaits option o
    | "help", none => .done .help
    | "version", none => .done .version
    | "verbose", none => .ofOptions o.setVerbose
    | _, none => .done .misuse
  | _ :: value =>
    match ValueOption.ofName? name with
    | some option => .ofOptions (o.set option (String.ofList value))
    | none => .done .misuse

/-- Options by their letters. The first one with a value takes the rest as its value. -/
def readLetters (o : CommandOptions) : List Char → ArgumentStep
  | [] => .go o
  | c :: rest =>
    match ValueOption.ofLetter? c with
    | some option =>
      if rest.isEmpty then .awaits option o
      else .ofOptions (o.set option (String.ofList (if rest.head? = some '=' then rest.tail else rest)))
    | none =>
      match c with
      | 'h' => .done .help
      | 'V' => .done .version
      | 'v' =>
        match o.setVerbose with
        | some o => readLetters o rest
        | none => .done .misuse
      | _ => .done .misuse

/-- Reads arguments from left to right. The first mistake, and a request for help or the version,
ends the reading. -/
def readArguments (o : CommandOptions) : Option ValueOption → List String → CommandRequest
  | some _, [] => .misuse
  | none, [] => o.request
  | some option, argument :: rest =>
    if argument.toList.head? = some '-' ∧ argument ≠ "-" then .misuse
    else
      match o.set option argument with
      | some o => readArguments o none rest
      | none => .misuse
  | none, argument :: rest =>
    match argument.toList with
    | ['-', '-'] => if rest.isEmpty then o.request else .misuse
    | '-' :: '-' :: text =>
      match readNamed o text with
      | .done request => request
      | .awaits option o => readArguments o (some option) rest
      | .go o => readArguments o none rest
    | ['-'] => .misuse
    | '-' :: letters =>
      match readLetters o letters with
      | .done request => request
      | .awaits option o => readArguments o (some option) rest
      | .go o => readArguments o none rest
    | _ => .misuse

def CommandRequest.ofArguments (arguments : List String) : CommandRequest :=
  readArguments .empty none arguments

end LivePages
