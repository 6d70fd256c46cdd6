import QuantileSketch.Error
import QuantileSketch.Text.Quoted

/-!
# The texts of an error

An error is written in three ways: on one line (`Error.display`), as a block of lines
(`Error.summary`), and as the full structure with one field a line (`Error.outline`).
-/
namespace QuantileSketch

namespace Report

/-- The kind, the details and the message on one line, without the causes. -/
def display (r : Report) : String :=
  let details := r.context.map fun detail => detail.1 ++ ": " ++ detail.2
  r.kind.fullName
    ++ (if details.isEmpty then "" else ", context: \x7b " ++ ", ".intercalate details ++ " \x7d")
    ++ (if r.message.isEmpty then "" else " => " ++ r.message)

/-- The kind and the message, then a line for each detail. -/
def summary (r : Report) : String :=
  r.kind.fullName ++ (if r.message.isEmpty then "" else " => " ++ r.message) ++ "\n"
    ++ (if r.context.isEmpty then ""
        else "\nContext:\n"
          ++ String.join
            (r.context.map fun detail => "   " ++ detail.1 ++ ": " ++ detail.2 ++ "\n"))

end Report

/-- A chain of reports on one line, each followed by its cause. -/
def displayChain : List Report → String
  | [] => ""
  | [r] => r.display
  | r :: causes => r.display ++ ", source: " ++ displayChain causes

/-- The lines of the causes: what is displayed of each cause, from the nearest on. -/
def displayEach : List Report → List String
  | [] => []
  | r :: causes => displayChain (r :: causes) :: displayEach causes

/-! ### Outlines

The outline of a structure has one field a line, each closed by a comma and set in by four blanks
below the line that opens the structure. -/
namespace Outline

/-- Lines set in by one step. -/
def indent (lines : List String) : List String :=
  lines.map ("    " ++ ·)

/-- A text put in front of the first of some lines. -/
def lead (text : String) : List String → List String
  | [] => [text]
  | line :: lines => (text ++ line) :: lines

/-- A comma after the last of some lines. -/
def close : List String → List String
  | [] => []
  | [line] => [line ++ ","]
  | line :: lines => line :: close lines

/-- Parts between an opening and a closing bracket, one part after the other. -/
def block (opening closing : String) (parts : List (List String)) : List String :=
  opening :: (parts.flatMap fun part => indent (close part)) ++ [closing]

/-- The outline of a kind. -/
def kind : ErrorKind → List String
  | .malformedPreamble fault => block "MalformedPreamble(" ")" [[fault.name]]
  | kind => [kind.name]

/-- The outline of the details. -/
def context : List (String × String) → List String
  | [] => ["[]"]
  | details => block "[" "]" (details.map fun detail =>
      block "(" ")" [[Text.quote detail.1], [Text.quote detail.2]])

/-- The four fields of an error, the outline of its cause being given. -/
def fields (r : Report) (source : List String) : List String :=
  block "Error \x7b" "\x7d"
    [lead "kind: " (kind r.kind), ["message: " ++ Text.quote r.message],
      lead "context: " (context r.context), lead "source: " source]

/-- The outline of a report and its causes. -/
def error (r : Report) : List Report → List String
  | [] => fields r ["None"]
  | cause :: causes => fields r (block "Some(" ")" [error cause causes])

end Outline

namespace Error

/-- The error and its causes on one line. -/
def display (e : Error) : String :=
  displayChain (e.toReport :: e.causes)

/-- What is displayed of each cause, nearest cause first. -/
def causeTexts (e : Error) : List String :=
  displayEach e.causes

/-- The error as a block of lines, the causes together on the last. -/
def summary (e : Error) : String :=
  e.toReport.summary
    ++ (if e.causes.isEmpty then "" else "\nSource:\n   " ++ ": ".intercalate e.causeTexts ++ "\n")

/-- The full structure of the error, with one field a line. -/
def outline (e : Error) : String :=
  "\n".intercalate (Outline.error e.toReport e.causes)

end Error

end QuantileSketch
