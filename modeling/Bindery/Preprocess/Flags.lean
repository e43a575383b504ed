import Bindery.OrderedMap
import Bindery.Path

/-!
# Compiler flags

Of the flags that a compiler takes, those that set include directories and macros matter
here. Each takes its value either attached or as the next flag; all others are ignored.

## Main definitions

* `Flags`: include directories and macro texts.
* `Flags.parse`: the meaning of a list of flags.
-/
namespace Bindery

/-- The flags that have a meaning. -/
inductive FlagName where
  | includeDir
  | define
  | undefine
deriving DecidableEq

/-- What the flags set. -/
structure Flags where
  includeDirs : List String := []
  defines : OrderedMap String String := {}
deriving Inhabited

namespace Flags

/-- How the flags are spelled, in the order in which they are tried. -/
def spellings : List (String × FlagName) :=
  [("-I", .includeDir), ("-iquote", .includeDir), ("-isystem", .includeDir),
   ("-D", .define), ("-U", .undefine)]

/-- The text behind a given beginning. -/
def afterLead? : List Char → List Char → Option (List Char)
  | [], cs => some cs
  | l :: ls, c :: cs => if l = c then afterLead? ls cs else none
  | _ :: _, [] => none

/-- The flag that a text starts with, and the rest of the text. -/
def match? (flag : String) : Option (FlagName × String) :=
  spellings.findSome? fun (spelling, name) =>
    (afterLead? spelling.toList flag.toList).map fun rest => (name, String.ofList rest)

/-- A macro definition is cut at its first `=`; without one the macro stands for `1`. -/
def cutDefine (value : String) : String × String :=
  let cs := value.toList
  match cs.dropWhile (· ≠ '=') with
  | _ :: replacement => (String.ofList (cs.takeWhile (· ≠ '=')), String.ofList replacement)
  | [] => (value, "1")

/-- Apply one flag with its value. -/
def apply (flags : Flags) (name : FlagName) (value : String) : Flags :=
  match name with
  | .includeDir => { flags with includeDirs := flags.includeDirs ++ [value] }
  | .define =>
    let (key, replacement) := cutDefine value
    { flags with defines := flags.defines.insert key replacement }
  | .undefine => { flags with defines := flags.defines.erase value }

/-- Apply the flags from left to right. A flag without an attached value takes the next one,
and is ignored when there is none. -/
def applyAll (flags : Flags) : List String → Flags
  | [] => flags
  | flag :: rest =>
    match match? flag with
    | none => applyAll flags rest
    | some (name, "") =>
      match rest with
      | value :: rest => applyAll (flags.apply name value) rest
      | [] => flags
    | some (name, value) => applyAll (flags.apply name value) rest

/-- What holds before any flag: the language version is defined. -/
def initial : Flags := { defines := OrderedMap.ofList [("__cplusplus", "201703L")] }

/-- The meaning of a list of flags. -/
def parse (flags : List String) : Flags := initial.applyAll flags

end Flags
end Bindery
