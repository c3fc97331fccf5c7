import NodeWatch.Cli.Arguments
import NodeWatch.Status

/-!
What the program says about itself.
-/

namespace NodeWatch.Cli

open Text

def programName : String := "pifleet"

def versionLine : String := programName ++ " " ++ Status.version

def Verb.about : Verb → String
  | run => "Run discovery and reconcile membership into the node registry"
  | announce => "Announce this node until interrupted"
  | scan => "Sample the network once and print what is visible"
  | nodes => "List nodes in the durable registry"

def about : String := "Node discovery and fleet membership for single-board computer clusters"

/-- What an option is for; the name and the port are those of an announcement. -/
def Opt.about : Opt → String
  | flag .verbose => "Enable verbose logging"
  | flag .announce => "Also announce this node"
  | flag .noStatus => "Disable the status server"
  | flag .json => "Print JSON instead of a table"
  | flag .help => "Print help"
  | flag .version => "Print version"
  | setting .config => "Configuration file (TOML); environment variables are used when absent"
  | setting .logFormat => "Log format (text, json) [default: text]"
  | setting .method => "Discovery method (broadcast, probe, static)"
  | setting .interface => "Restrict discovery to one network interface"
  | setting .wait => "Seconds to listen before sampling (broadcast) [default: 3]"
  | setting .name => "Instance name (defaults to the host name)"
  | setting .port => "Advertised port"

/-- The placeholder of a value: the name of the option in capitals. -/
def Setting.placeholder (s : Setting) : String :=
  let name := (Opt.setting s).long.map fun c => if c = '-' then '_' else c.toUpper
  "<" ++ name ++ ">"

/-- An option as it is written. -/
def Opt.form (o : Opt) : String :=
  let short := match o.short? with
    | some c => String.ofList ['-', c, ',', ' ']
    | none => "    "
  let value := match o with
    | .setting s => " " ++ s.placeholder
    | .flag _ => ""
  short ++ "--" ++ o.long ++ value

/-- Two columns. -/
def columns (rows : List (String × String)) : List String :=
  let width := (rows.map (·.1.length)).foldl max 0
  rows.map fun (a, b) => "  " ++ String.ofList (padRight width a.toList) ++ "  " ++ b

def optionLines (verb : Option Verb) : List String :=
  "Options:" :: columns ((Opt.of verb).map fun o => (o.form, o.about))

def helpLines : Option Verb → List String
  | none =>
    [about, "", "Usage: " ++ programName ++ " [OPTIONS] <COMMAND>", "", "Commands:"]
      ++ columns (Verb.all.map (fun v => (v.text, v.about))
        ++ [("help", "Print this message or the help of the given subcommand(s)")])
      ++ "" :: optionLines none
  | some v =>
    [v.about, "", "Usage: " ++ programName ++ " " ++ v.text ++ " [OPTIONS]", ""]
      ++ optionLines (some v)

end NodeWatch.Cli
