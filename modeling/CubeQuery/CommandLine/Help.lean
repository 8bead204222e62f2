import CubeQuery.CommandLine.Command
import CubeQuery.CommandLine.Styled

/-!
# Help texts

The help texts of the program and of its commands. Where an option has values to explain, the full
text sets every description below its option; otherwise the descriptions form a column. Headings and
the words to type are styled.
-/

namespace CubeQuery.CommandLine.Help

structure Line where
  letter : Option Char
  name : String
  valueName : String
  about : String
  /-- The default value, where it is worth a mention. -/
  default : Option String
  /-- The values to choose from, with their descriptions. -/
  choices : List (String × String)

def formatChoices : List (String × String) := [
  ("csv", "Header row plus one line per tidy row"),
  ("jsonrecords", "\x7b\"data\": [\x7bcolumn: value\x7d]\x7d"),
  ("json", "Axes, axis dimensions and nested values")]

def Line.ofForm (f : OptionForm) : Line :=
  let line : Line := ⟨f.letter, f.name, f.valueName, f.about, none, []⟩
  if f.name = "format" then { line with default := some "json", choices := formatChoices } else line

open Styled

def Line.nameText (l : Line) : Styled :=
  literal ("--" ++ l.name) ++
    (if l.valueName.isEmpty then [] else plain (" <" ++ l.valueName ++ ">"))

def Line.letterText (l : Line) : Styled :=
  match l.letter with
  | some c => literal (String.ofList ['-', c]) ++ plain ", "
  | none => plain "    "

def Line.label (l : Line) : Styled := plain "  " ++ l.letterText ++ l.nameText

def Line.defaultText (l : Line) : List String :=
  l.default.toList.map fun v => "[default: " ++ v ++ "]"

def Line.choiceText (l : Line) : List String :=
  if l.choices.isEmpty then []
  else ["[possible values: " ++ ", ".intercalate (l.choices.map (·.1)) ++ "]"]

def Line.summary (l : Line) : String :=
  " ".intercalate (l.about :: (l.defaultText ++ l.choiceText))

def column (lines : List Line) : Styled :=
  let width := widest (lines.map (·.nameText))
  joined "\n" (lines.map fun l =>
    plain "  " ++ l.letterText ++ padded width l.nameText ++ plain ("  " ++ l.summary))

def indent : String := blanks 10

/-- The values to choose from with their descriptions, and the default below them. -/
def Line.choiceList (l : Line) : Styled :=
  if l.choices.isEmpty then []
  else
    let names := l.choices.map (·.1)
    let width := widest (names.map literal)
    plain ("\n\n" ++ indent ++ "Possible values:") ++
      (l.choices.map fun (name, about) =>
        plain ("\n" ++ indent ++ "- ") ++ literal name ++
          plain (": " ++ blanks (width - name.length) ++ about)).flatten ++
      plain (String.join (l.defaultText.map fun v =>
        "\n" ++ indent ++ "\n" ++ indent ++ v))

def Line.paragraph (l : Line) : Styled :=
  l.label ++ plain ("\n" ++ indent ++ l.about) ++ l.choiceList

def paragraphs (lines : List Line) : Styled := joined "\n\n" (lines.map (·.paragraph))

def helpLine (about : String) : Line := ⟨some 'h', "help", "", about, none, []⟩

def versionLine : Line := ⟨some 'V', "version", "", "Print version", none, []⟩

def commandList : List (String × String) :=
  CommandName.all.map (fun c => (c.text, c.about)) ++
    [("help", "Print this message or the help of the given subcommand(s)")]

def commandColumn : Styled :=
  let width := widest (commandList.map fun (name, _) => literal name)
  joined "\n" (commandList.map fun (name, about) =>
    plain "  " ++ padded width (literal name) ++ plain ("  " ++ about))

def usage (called arguments : String) : Styled :=
  heading "Usage:" ++ plain " " ++ literal called ++ plain (" " ++ arguments)

/-- A heading with what stands below it, after a blank line. -/
def titled (title : String) (body : Styled) : Styled :=
  plain "\n\n" ++ heading title ++ plain "\n" ++ body

def programText : Styled :=
  plain "Prism - compile cube requests to MDX and flatten the results\n\n" ++
    usage "prism" "[OPTIONS] <COMMAND>" ++ titled "Commands:" commandColumn ++
    titled "Options:"
      (column [Line.ofForm catalogForm, helpLine "Print help", versionLine]) ++ plain "\n"

/-- An option that has to be given, in the line that shows how its command is called. -/
def requiredOption (name : String) : Styled :=
  plain " " ++ literal ("--" ++ name) ++
    plain (" <" ++ String.ofList (name.toList.map Char.toUpper) ++ ">")

/-- The options of a command, its full or its short descriptions. -/
def optionText (c : CommandName) (full : Bool) : Styled :=
  let lines := (catalogForm :: c.forms).map Line.ofForm
  if lines.any fun l => !l.choices.isEmpty then
    if full then paragraphs (lines ++ [helpLine "Print help (see a summary with '-h')"])
    else column (lines ++ [helpLine "Print help (see more with '--help')"])
  else column (lines ++ [helpLine "Print help"])

def commandText (c : CommandName) (full : Bool) : Styled :=
  plain (c.about ++ "\n\n") ++ usage ("prism " ++ c.text) "[OPTIONS]" ++
    (c.requiredNames.map requiredOption).flatten ++
    titled "Options:" (optionText c full) ++ plain "\n"

/-- The help text of the command that gives help. -/
def helpText : Styled :=
  plain "Print this message or the help of the given subcommand(s)\n\n" ++
    usage "prism help" "[COMMAND]..." ++
    titled "Arguments:" (plain "  [COMMAND]...  Print help for the subcommand(s)") ++
    plain "\n"

end CubeQuery.CommandLine.Help
