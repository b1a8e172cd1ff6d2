import RateTree.CommandLine.Invocation
import RateTree.Text.Numeral

/-!
# Help texts

The help texts of the program and its subcommands: what they do, how they are used, and a table for
each kind of word they take. The right column of a table starts two blanks behind the longest entry
of its left column.
-/

namespace RateTree

namespace Help

/-- A row of a table: a word and what it is for. -/
abbrev Row := String × String

/-- A text with blanks behind it, at least `width` characters in all. -/
def padRight (width : Nat) (text : String) : String :=
  text ++ String.ofList (List.replicate (width - text.length) ' ')

/-- A table under a heading; a table without rows is left out. -/
def table (heading : String) (rows : List Row) : String :=
  let width := rows.foldl (fun widest row => max widest row.1.length) 0
  let line (row : Row) : String := "  " ++ padRight width row.1 ++ "  " ++ row.2 ++ "\n"
  if rows.isEmpty then "" else "\n" ++ heading ++ ":\n" ++ String.join (rows.map line)

/-- The words of the options that every subcommand knows. -/
def services : Row :=
  ("    --services <SERVICES>", "Enabled services, in root order [default: asym,sym,dc]")

/-- The row of the option that sets the number of functions. -/
def vfs : Row := ("    --vfs <VFS>", "VFs on the device [default: 16]")

/-- The row of the option for help. -/
def help : Row := ("-h, --help", "Print help")

/-- The row of the option for the version. -/
def version : Row := ("-V, --version", "Print version")

/-- What the help subcommand is for. -/
def helpPurpose : String := "Print this message or the help of the given subcommand(s)"

end Help

namespace Subcommand

/-- What a subcommand is for. -/
def purpose : Subcommand → String
  | .translate => "Translate a rate into hardware token values"
  | .caps => "Print capabilities of a freshly initialised device"
  | .tree => "Print the bootstrap tree of a freshly initialised device"
  | .run => "Replay an SLA script against a simulated device"
  | .links => "Dump the RL link tables of a live device (requires root)"

/-- The rows of the arguments that a subcommand takes. -/
def argumentRows : Subcommand → List Help.Row
  | .translate =>
    [("<SERVICE>", "Service (asym, sym, dc)"), ("<CIR>", "Committed rate"),
      ("[PIR]", "Peak rate; defaults to the committed rate")]
  | .caps | .tree => []
  | .run => [("<SCRIPT>", "Script file, one command per line")]
  | .links => [("<PCIE_ADDR>", "PCIe address of the PF (e.g. 0000:6b:00.0)")]

/-- The rows of the options that a subcommand takes, by name. -/
def optionRows : Subcommand → List Help.Row
  | .links =>
    [("    --bar <BAR>", "BAR holding the PMISC registers [default: 4]"), Help.services,
      ("    --vfio", "Map the BAR through VFIO instead of sysfs"), Help.vfs, Help.help]
  | _ => [Help.services, Help.vfs, Help.help]

/-- The line on how a subcommand is used. -/
def usage (subcommand : Subcommand) : String :=
  "Usage: qat-rl " ++ subcommand.name ++ " [OPTIONS]" ++
    String.join (subcommand.argumentRows.map fun row => " " ++ row.1) ++ "\n"

end Subcommand

namespace HelpTopic

/-- The whole help on a topic. -/
def text : HelpTopic → String
  | .program =>
    "QAT rate limiting CLI\n\nUsage: qat-rl [OPTIONS] <COMMAND>\n" ++
      Help.table "Commands"
        (Subcommand.all.map (fun subcommand => (subcommand.name, subcommand.purpose)) ++
          [("help", Help.helpPurpose)]) ++
      Help.table "Options" [Help.services, Help.vfs, Help.help, Help.version]
  | .subcommand which =>
    which.purpose ++ "\n\n" ++ which.usage ++ Help.table "Arguments" which.argumentRows ++
      Help.table "Options" which.optionRows
  | .help =>
    Help.helpPurpose ++ "\n\nUsage: qat-rl help [COMMAND]...\n" ++
      Help.table "Arguments" [("[COMMAND]...", "Print help for the subcommand(s)")]

end HelpTopic

end RateTree
