import SceneLayout.Number.Numeral
import SceneLayout.Entries

/-!
# Command line arguments

Arguments are switches, the values of switches, and up to two file names, in any
order. A switch has a long name, whose value may follow an equals sign, and maybe a
letter; letters may be joined behind one dash, and what follows a letter that takes
a value is its value. After two dashes alone everything is a file name. The last
value of a switch counts.
-/

namespace SceneLayout.CommandLine

/-- A switch of the program. -/
inductive Switch where
  | margin
  | budget
  | epsilon
  | damping
  | verbose
  | help
deriving DecidableEq

namespace Switch

/-- Whether a value belongs to the switch. -/
def takesValue : Switch → Bool
  | verbose => false
  | help => false
  | _ => true

/-- The switches by their long names. -/
def longNames : Entries Switch :=
  [("--margin", .margin), ("--max-iterations", .budget), ("--epsilon", .epsilon),
    ("--damping", .damping), ("--verbose", .verbose), ("--help", .help)]

/-- The switch of a letter. -/
def ofLetter? : Char → Option Switch
  | 'm' => some .margin
  | 'v' => some .verbose
  | _ => none

end Switch

/-- The arguments as far as they have been sorted. -/
structure Sorted where
  values : List (Switch × String) := []
  flags : List Switch := []
  names : List String := []

/-- What one argument says: flags, and a switch whose value stands in it or follows it. -/
structure Reading where
  flags : List Switch
  valued : Option (Switch × Option String)

/-- Reads letters behind a dash. -/
def readLetters : List Char → Option Reading
  | [] => some ⟨[], none⟩
  | letter :: rest => do
      let switch ← Switch.ofLetter? letter
      if switch.takesValue then
        return ⟨[], some (switch, if rest.isEmpty then none else some (String.ofList rest))⟩
      else
        let reading ← readLetters rest
        return { reading with flags := switch :: reading.flags }

/-- The part of an argument before its first equals sign, and the part after it. -/
def splitEquals (argument : List Char) : List Char × Option (List Char) :=
  let name := argument.takeWhile fun c => c != '='
  match argument.drop name.length with
  | [] => (name, none)
  | _ :: value => (name, some value)

/-- Reads an argument that begins with a dash. -/
def readSwitch (argument : String) : Option Reading :=
  let chars := argument.toList
  let (name, value) := splitEquals chars
  match Entries.find? Switch.longNames (String.ofList name), value with
  | some switch, value =>
      if switch.takesValue then some ⟨[], some (switch, value.map String.ofList)⟩
      else if value.isNone then some ⟨[switch], none⟩ else none
  | none, _ =>
      match chars with
      | '-' :: '-' :: _ => none
      | '-' :: letters => readLetters letters
      | _ => none

/-- An argument that begins with a dash and is not a dash alone. -/
def isSwitch (argument : String) : Bool :=
  match argument.toList with
  | '-' :: _ :: _ => true
  | _ => false

/-- Sorts arguments; there is no result if one is unknown or lacks its value. -/
def sort (sorted : Sorted) : List String → Option Sorted
  | [] => some sorted
  | argument :: rest =>
      if argument = "--" then some { sorted with names := sorted.names ++ rest }
      else if isSwitch argument then
        match readSwitch argument with
        | none => none
        | some ⟨flags, none⟩ => sort { sorted with flags := sorted.flags ++ flags } rest
        | some ⟨flags, some (switch, some value)⟩ =>
            sort { sorted with
              flags := sorted.flags ++ flags
              values := sorted.values ++ [(switch, value)] } rest
        | some ⟨flags, some (switch, none)⟩ =>
            match rest with
            | [] => none
            | value :: rest =>
                sort { sorted with
                  flags := sorted.flags ++ flags
                  values := sorted.values ++ [(switch, value)] } rest
      else sort { sorted with names := sorted.names ++ [argument] } rest

/-- What a run is asked to do. -/
structure Options where
  /-- The file to read; a dash stands for the standard input. -/
  input : String
  /-- The file to write; a dash or nothing stands for the standard output. -/
  output : Option String
  margin : Binary64
  budget : Option Nat
  epsilon : Option Binary64
  damping : Option Binary64
  verbose : Bool

/-- What the arguments ask for. -/
inductive Request where
  | help
  | misuse
  | draw (options : Options)

namespace Request

/-- The last value of a switch as a number, if it is given; none if it is no number. -/
def numberOf {β : Type} (read : String → Option β) (sorted : Sorted) (switch : Switch) :
    Option (Option β) :=
  match Entries.find? sorted.values.reverse switch with
  | none => some none
  | some text => (read text).map some

/-- The options of sorted arguments. A negative budget is no budget. -/
def optionsOf (sorted : Sorted) : Option Options := do
  let margin ← numberOf Numeral.double? sorted .margin
  let budget ← numberOf Numeral.wholeNumber? sorted .budget
  let epsilon ← numberOf Numeral.double? sorted .epsilon
  let damping ← numberOf Numeral.double? sorted .damping
  guard (sorted.names.length ≤ 2)
  return {
    input := sorted.names[0]?.getD "-"
    output := sorted.names[1]?
    margin := margin.getD (.zero false)
    budget := budget.map Int.toNat
    epsilon := epsilon
    damping := damping
    verbose := sorted.flags.contains .verbose }

/-- Reads the arguments. Asking for help comes before all that is wrong with values and names. -/
def ofArguments (arguments : List String) : Request :=
  match sort {} arguments with
  | none => .misuse
  | some sorted =>
      if sorted.flags.contains .help then .help
      else
        match optionsOf sorted with
        | some options => .draw options
        | none => .misuse

end Request

end SceneLayout.CommandLine
