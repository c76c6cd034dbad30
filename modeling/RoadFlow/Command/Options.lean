import RoadFlow.Decimal.Read
import RoadFlow.Fit.Settings
import RoadFlow.Route.Policy

/-!
# Command-line options

Options go by their names and are given at most once. One with a value takes the next argument, or
what follows an equals sign in its own. A network comes as four tables and a number of clusters, all
of them or none.
-/

namespace RoadFlow.Command

/-- Options that take a value. -/
inductive Valued where
  | nodes
  | links
  | labels
  | counts
  | clusterCount
  | settings
  | steps
  | learningRate
  | logInterval
  | saveInterval
  | seed
  | policy
  | output
  | cacheDirectory
  deriving DecidableEq

namespace Valued

def all : List Valued :=
  [nodes, links, labels, counts, clusterCount, settings, steps, learningRate, logInterval,
    saveInterval, seed, policy, output, cacheDirectory]

def name : Valued → String
  | nodes => "nodes"
  | links => "links"
  | labels => "labels"
  | counts => "counts"
  | clusterCount => "num-clusters"
  | settings => "config"
  | steps => "steps"
  | learningRate => "learning-rate"
  | logInterval => "log-interval"
  | saveInterval => "save-interval"
  | seed => "seed"
  | policy => "policy"
  | output => "output"
  | cacheDirectory => "cache-dir"

def ofName? (name : String) : Option Valued := all.find? fun v => v.name == name

end Valued

/-- Options that are given or not. -/
inductive Flag where
  | toy
  | useBias
  | noTrips
  | verbose
  | help
  | version
  deriving DecidableEq

namespace Flag

def all : List Flag := [toy, useBias, noTrips, verbose, help, version]

def name : Flag → String
  | toy => "toy"
  | useBias => "use-bias"
  | noTrips => "no-trips"
  | verbose => "verbose"
  | help => "help"
  | version => "version"

def ofName? (name : String) : Option Flag := all.find? fun f => f.name == name

/-- Some flags have a letter of their own. -/
def ofLetter? : Char → Option Flag
  | 'v' => some verbose
  | 'h' => some help
  | 'V' => some version
  | _ => none

end Flag

inductive UsageFault where
  | unknown (argument : String)
  | repeated (option : String)
  | missingValue (option : String)
  | badValue (option value : String)
  | unwantedValue (option : String)
  | conflict (option other : String)
  | requires (option other : String)
  deriving DecidableEq

def UsageFault.message : UsageFault → String
  | .unknown argument => "unexpected argument " ++ argument
  | .repeated option => s!"--{option} is given twice"
  | .missingValue option => s!"--{option} needs a value"
  | .badValue option value => s!"--{option} cannot be " ++ value
  | .unwantedValue option => s!"--{option} takes no value"
  | .conflict option other => s!"--{option} cannot be used with --{other}"
  | .requires option other => s!"--{option} needs --{other}"

/-- Texts shown in place of a run. -/
inductive Page where
  | help
  | version
  deriving DecidableEq

def Page.lines : Page → List String
  | .version => ["roadflow 0.1.0"]
  | .help =>
    ["Fits hourly flows between clusters to sensor counts on the edges of a road network.",
      "",
      "  --nodes FILE          nodes (id,x,y)",
      "  --links FILE          edges (id,from,to,length)",
      "  --labels FILE         cluster of each node (node_id,cluster)",
      "  --counts FILE         sensor counts (link_id,hour,volume)",
      "  --num-clusters N      how many clusters the labels refer to",
      "  --toy                 run the built-in scenario",
      "  --config FILE         settings of the fit",
      "  --steps N             steps in all",
      "  --learning-rate X     size of the first steps",
      "  --log-interval N      steps from one logged step to the next",
      "  --save-interval N     steps from one saved snapshot to the next, 0 for none",
      "  --seed N              seed of the first flows",
      "  --use-bias            fit an addend for each hour",
      "  --policy POLICY       cost of a route: length or hops [default: length]",
      "  --output DIR          where the report goes [default: output/flowfit]",
      "  --cache-dir DIR       where matrices are kept [default: cache in the output]",
      "  --no-trips            sample no trips",
      "  -v, --verbose         show debug records",
      "  -h, --help            show this page",
      "  -V, --version         show the version"]

/-- Why arguments give no options to run with. -/
inductive Refusal where
  | page (page : Page)
  | fault (fault : UsageFault)
  deriving DecidableEq

structure Options where
  nodes : Option String := none
  links : Option String := none
  labels : Option String := none
  counts : Option String := none
  clusterCount : Option Nat := none
  toy : Bool := false
  settings : Option String := none
  steps : Option Nat := none
  learningRate : Option Float32 := none
  logInterval : Option Nat := none
  saveInterval : Option Nat := none
  seed : Option Nat := none
  useBias : Bool := false
  policy : Option Policy := none
  output : Option String := none
  cacheDirectory : Option String := none
  noTrips : Bool := false
  verbose : Bool := false
  deriving DecidableEq

/-! ## Values -/

def readPath? (text : String) : Option String := if text.isEmpty then none else some text

def readCount? (text : String) : Option Nat :=
  (Decimal.readNatural 10 (twoTo 64) text.toList).toOption

def readSingle? (text : String) : Option Float32 :=
  (Decimal.Format.single.read text.toList).toOption.map fun bits => .ofBits bits.toUInt32

namespace Options

/-- The options with one that takes a value. -/
def give (o : Options) (v : Valued) (text : String) : Except Refusal Options :=
  let put {α : Type} (old new : Option α) (next : Options) : Except Refusal Options :=
    if old.isSome then .error (.fault (.repeated v.name))
    else if new.isNone then .error (.fault (.badValue v.name text))
    else .ok next
  match v with
  | .nodes => let x := readPath? text; put o.nodes x { o with nodes := x }
  | .links => let x := readPath? text; put o.links x { o with links := x }
  | .labels => let x := readPath? text; put o.labels x { o with labels := x }
  | .counts => let x := readPath? text; put o.counts x { o with counts := x }
  | .clusterCount => let x := readCount? text; put o.clusterCount x { o with clusterCount := x }
  | .settings => let x := readPath? text; put o.settings x { o with settings := x }
  | .steps => let x := readCount? text; put o.steps x { o with steps := x }
  | .learningRate => let x := readSingle? text; put o.learningRate x { o with learningRate := x }
  | .logInterval => let x := readCount? text; put o.logInterval x { o with logInterval := x }
  | .saveInterval => let x := readCount? text; put o.saveInterval x { o with saveInterval := x }
  | .seed => let x := readCount? text; put o.seed x { o with seed := x }
  | .policy => let x := Policy.ofName? text; put o.policy x { o with policy := x }
  | .output => let x := readPath? text; put o.output x { o with output := x }
  | .cacheDirectory =>
    let x := readPath? text; put o.cacheDirectory x { o with cacheDirectory := x }

/-- The options with a flag. -/
def raise (o : Options) (f : Flag) : Except Refusal Options :=
  let put (old : Bool) (next : Options) : Except Refusal Options :=
    if old then .error (.fault (.repeated f.name)) else .ok next
  match f with
  | .toy => put o.toy { o with toy := true }
  | .useBias => put o.useBias { o with useBias := true }
  | .noTrips => put o.noTrips { o with noTrips := true }
  | .verbose => put o.verbose { o with verbose := true }
  | .help => .error (.page .help)
  | .version => .error (.page .version)

/-- The options with the flags of some letters. -/
def raiseLetters (o : Options) : List Char → Except Refusal Options
  | [] => .ok o
  | c :: rest =>
    match Flag.ofLetter? c with
    | none => .error (.fault (.unknown (String.ofList ['-', c])))
    | some f =>
      match o.raise f with
      | .error refusal => .error refusal
      | .ok o => o.raiseLetters rest

end Options

/-! ## Arguments -/

/-- What an argument is by its look. -/
inductive Argument where
  /-- A name and what follows its equals sign. -/
  | long (name : String) (attached : Option String)
  | letters (letters : List Char)
  /-- Two dashes, after which there are no options. -/
  | divider
  | plain
  deriving DecidableEq

namespace Argument

/-- A name and what follows its first equals sign. -/
def splitName (body : List Char) : Argument :=
  let name := String.ofList (body.takeWhile (· ≠ '='))
  match body.dropWhile (· ≠ '=') with
  | [] => .long name none
  | _ :: value => .long name (some (String.ofList value))

def ofString (text : String) : Argument :=
  match text.toList with
  | ['-', '-'] => .divider
  | '-' :: '-' :: body => splitName body
  | '-' :: c :: rest => .letters (c :: rest)
  | _ => .plain

end Argument

namespace Options

/-- Takes the arguments from the left. -/
def read (o : Options) : List String → Except Refusal Options
  | [] => .ok o
  | argument :: rest =>
    match Argument.ofString argument with
    | .plain => .error (.fault (.unknown argument))
    | .divider =>
      match rest with
      | [] => .ok o
      | next :: _ => .error (.fault (.unknown next))
    | .letters letters =>
      match o.raiseLetters letters with
      | .error refusal => .error refusal
      | .ok o => o.read rest
    | .long name attached =>
      match Valued.ofName? name, Flag.ofName? name with
      | none, none => .error (.fault (.unknown argument))
      | none, some f =>
        if attached.isSome then .error (.fault (.unwantedValue name))
        else match o.raise f with
          | .error refusal => .error refusal
          | .ok o => o.read rest
      | some v, _ =>
        match attached, rest with
        | some text, rest =>
          match o.give v text with
          | .error refusal => .error refusal
          | .ok o => o.read rest
        | none, [] => .error (.fault (.missingValue name))
        | none, text :: rest =>
          if Argument.ofString text ≠ .plain then .error (.fault (.missingValue name))
          else match o.give v text with
            | .error refusal => .error refusal
            | .ok o => o.read rest

def ofArguments (arguments : List String) : Except Refusal Options := read {} arguments

end Options

/-! ## What the options ask for -/

/-- Where a network comes from. -/
inductive Source where
  | gridTown
  | tables (nodes links labels counts : String) (clusterCount : Nat)
  deriving DecidableEq

namespace Options

/-- The options that describe a network, and whether each is given. -/
def description (o : Options) : List (Valued × Bool) :=
  [(.nodes, o.nodes.isSome), (.links, o.links.isSome), (.labels, o.labels.isSome),
    (.counts, o.counts.isSome), (.clusterCount, o.clusterCount.isSome)]

/-- What a network that is described in part lacks. The built-in scenario stands in for a table of
nodes, and for nothing else. -/
def incomplete? (o : Options) : Option UsageFault := do
  let given ← o.description.find? (·.2)
  let missing ← o.description.find? fun (v, isGiven) => !isGiven && !(v = .nodes && o.toy)
  return .requires given.1.name missing.1.name

/-- The described network, or else the built-in scenario. -/
def source (o : Options) : Except UsageFault Source :=
  if o.toy && o.nodes.isSome then .error (.conflict Flag.toy.name Valued.nodes.name)
  else match o.incomplete? with
    | some fault => .error fault
    | none =>
      match o.nodes, o.links, o.labels, o.counts, o.clusterCount with
      | some nodes, some links, some labels, some counts, some z =>
        .ok (.tables nodes links labels counts z)
      | _, _, _, _, _ => .ok .gridTown

/-- The settings with those that the options give in their place. -/
def adjust (o : Options) (c : FitSettings Float32) : FitSettings Float32 :=
  { c with
    steps := o.steps.getD c.steps
    learningRate := o.learningRate.getD c.learningRate
    logInterval := o.logInterval.getD c.logInterval
    saveInterval := o.saveInterval.getD c.saveInterval
    seed := (o.seed.map Nat.toUInt64).getD c.seed
    useBias := c.useBias || o.useBias }

def outputText (o : Options) : String := o.output.getD "output/flowfit"

end Options

end RoadFlow.Command
