import ReleaseTracker.Cli.Grammar

/-! The short help on a command. -/

namespace ReleaseTracker.Cli

def columns (rows : List (String × String)) : List String :=
  let width := (rows.map (·.1.length)).foldl max 0
  rows.map fun (name, remark) =>
    "  " ++ name ++ String.ofList (List.replicate (width - name.length + 2) ' ') ++ remark

def OptionForm.row (option : OptionForm) : String × String :=
  let values :=
    match option.kind with
    | .oneOf names => " [possible values: " ++ ", ".intercalate names ++ "]"
    | _ => ""
  (s!"-{option.letter}, --{option.name} <{option.valueName}>", option.about ++ values)

def Form.hasMore (form : Form) : Bool :=
  form.options.any fun option =>
    match option.kind with
    | .oneOf _ => true
    | _ => false

def Form.usage (form : Form) : String :=
  if form.isGroup then " <COMMAND>"
  else
    let required := form.options.filter (·.required)
    let asked := required.map fun option => " --" ++ option.name ++ " <" ++ option.valueName ++ ">"
    (if form.options.length = required.length then "" else " [OPTIONS]") ++ String.join asked

def Form.help (form : Form) (path : List String) : List String :=
  let isProgram := path.length ≤ 1
  let helpRemark :=
    if isProgram || form.hasMore then "Print help (see more with '--help')" else "Print help"
  let versionRow := if isProgram then [("-V, --version", "Print version")] else []
  let helpCommand := ("help", "Print this message or the help of the given subcommand(s)")
  let commandLines :=
    if form.isGroup then
      "Commands:" ::
        columns (form.commands.map (fun command => (command.name, command.about)) ++
          [helpCommand]) ++ [""]
    else []
  [form.about, "", "Usage: " ++ " ".intercalate path ++ form.usage, ""] ++ commandLines ++
    "Options:" ::
      columns (form.options.map (·.row) ++ [("-h, --help", helpRemark)] ++ versionRow)

end ReleaseTracker.Cli
