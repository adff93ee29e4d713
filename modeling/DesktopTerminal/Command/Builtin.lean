import DesktopTerminal.Command.Schema

/-!
# Built-in commands

The commands that run in the terminal itself, and their schemas. Any other name belongs to the
gateway.
-/
namespace DesktopTerminal

inductive Builtin where
  | cat
  | cd
  | chmod
  | clear
  | cp
  | date
  | echo
  | grep
  | head
  | help
  | history
  | hostname
  | kill
  | ls
  | mkdir
  | mv
  | ps
  | pwd
  | rm
  | tail
  | touch
  | uname
  | whoami
deriving DecidableEq, Repr

namespace Builtin

/-- All commands, sorted by name. -/
def all : List Builtin :=
  [.cat, .cd, .chmod, .clear, .cp, .date, .echo, .grep, .head, .help, .history, .hostname, .kill,
    .ls, .mkdir, .mv, .ps, .pwd, .rm, .tail, .touch, .uname, .whoami]

def schema : Builtin → Schema
  | .cat => ⟨"cat", "Read and output file contents",
      [.optional "path" "string" none "File path(s) to read; piped input if none" []],
      [⟨"Show a file", "cat Documents/readme.txt"⟩,
        ⟨"Pass piped input through", "echo hi | cat"⟩], false⟩
  | .cd => ⟨"cd", "Change current working directory",
      [.optional "path" "string" (some "~")
        "Directory to change to (use - for previous directory)" []],
      [⟨"Go home", "cd"⟩, ⟨"Back to the previous directory", "cd -"⟩], false⟩
  | .chmod => ⟨"chmod", "Change file mode bits",
      [.needed "mode" "string" "Octal (755) or symbolic (u+x,go-w) mode",
        .needed "path" "string" "Path(s) to change"],
      [⟨"Make a script executable", "chmod +x run.sh"⟩,
        ⟨"Private file", "chmod 600 notes.txt"⟩], true⟩
  | .clear => ⟨"clear", "Clear the terminal screen", [], [], false⟩
  | .cp => ⟨"cp", "Copy files or directories",
      [.switch "recursive" "Copy directories recursively (-r)" ["-r", "-R", "--recursive"],
        .needed "source" "string" "Source path(s)",
        .needed "destination" "string" "Destination path or directory"],
      [⟨"Back up a file", "cp notes.txt notes.bak"⟩,
        ⟨"Copy a folder into another", "cp -r Documents Desktop"⟩], false⟩
  | .date => ⟨"date", "Display current date and time",
      [.switch "utc" "Use UTC instead of local time (-u)" ["-u", "--utc"],
        .optional "format" "string" none "+FORMAT, strftime style" []],
      [⟨"Default", "date"⟩, ⟨"ISO day", "date +%Y-%m-%d"⟩], false⟩
  | .echo => ⟨"echo", "Print arguments",
      [.optional "args" "string" none "Words to print" []],
      [⟨"Write a file", "echo hello > greeting.txt"⟩], true⟩
  | .grep => ⟨"grep", "Search for lines containing a string",
      [.needed "pattern" "string" "Literal text to search for",
        .optional "path" "string" none "File to search (piped input if not provided)" [],
        .switch "ignore_case" "Case-insensitive matching (-i)" ["-i"],
        .switch "invert" "Select non-matching lines (-v)" ["-v"],
        .switch "count" "Only print count of matching lines (-c)" ["-c"],
        .switch "line_number" "Prefix output with line numbers (-n)" ["-n"]],
      [⟨"Filter piped output", "ls | grep txt"⟩,
        ⟨"Count matches ignoring case", "grep -ic hello notes.txt"⟩], false⟩
  | .head => ⟨"head", "Output the first lines of a file or piped input",
      [.optional "lines" "int" (some "10") "Number of lines (-n)" ["-n", "--lines"],
        .optional "path" "string" none "File to read (piped input if not provided)" []],
      [⟨"First 3 lines", "head -n 3 notes.txt"⟩], false⟩
  | .help => ⟨"help", "Display help for commands and shell syntax",
      [.optional "topic" "string" none "syntax, builtins, or a command name" []],
      [⟨"Usage of one command", "help grep"⟩], false⟩
  | .history => ⟨"history", "Show command history", [],
      [⟨"Search history", "history | grep cd"⟩], false⟩
  | .hostname => ⟨"hostname", "Print the system hostname", [], [], false⟩
  | .kill => ⟨"kill", "Terminate a process (close its window)",
      [.needed "pid" "int" "Process ID as shown by ps"],
      [⟨"Close a window", "kill 4821"⟩], true⟩
  | .ls => ⟨"ls", "List directory contents",
      [.switch "all" "Show hidden entries starting with . (-a)" ["-a", "--all"],
        .switch "long" "Long format with permissions, owner and size (-l)" ["-l"],
        .optional "path" "string" (some ".") "Directory or file to list" []],
      [⟨"List current directory", "ls"⟩, ⟨"Show hidden files with details", "ls -la ~"⟩], false⟩
  | .mkdir => ⟨"mkdir", "Create directories",
      [.switch "parents" "Create missing parent directories, no error if existing (-p)"
          ["-p", "--parents"],
        .needed "path" "string" "Directory path(s) to create"],
      [⟨"Nested project folder", "mkdir -p Documents/projects/demo"⟩], false⟩
  | .mv => ⟨"mv", "Move or rename files and directories",
      [.needed "source" "string" "Source path(s)",
        .needed "destination" "string" "Destination path or directory"],
      [⟨"Rename", "mv draft.txt final.txt"⟩,
        ⟨"Move into a folder", "mv final.txt Documents"⟩], false⟩
  | .ps => ⟨"ps", "List running processes and open windows", [],
      [⟨"Find a window's PID", "ps | grep browser"⟩], false⟩
  | .pwd => ⟨"pwd", "Print current working directory", [], [], false⟩
  | .rm => ⟨"rm", "Remove files or directories",
      [.switch "recursive" "Remove directories and their contents (-r)"
          ["-r", "-R", "--recursive"],
        .switch "force" "Ignore nonexistent files (-f)" ["-f", "--force"],
        .needed "path" "string" "Path(s) to remove"],
      [⟨"Remove a folder", "rm -r Downloads/old"⟩], false⟩
  | .tail => ⟨"tail", "Output the last lines of a file or piped input",
      [.optional "lines" "int" (some "10") "Number of lines (-n)" ["-n", "--lines"],
        .optional "path" "string" none "File to read (piped input if not provided)" []],
      [⟨"Last 3 lines", "tail -n 3 notes.txt"⟩], false⟩
  | .touch => ⟨"touch", "Create empty files",
      [.needed "path" "string" "File path(s) to create"], [], false⟩
  | .uname => ⟨"uname", "Print system identification",
      [.switch "all" "Print all information" ["-a", "--all"],
        .switch "kernel_name" "Print the kernel name (default)" ["-s"],
        .switch "nodename" "Print the network node hostname" ["-n"],
        .switch "kernel_release" "Print the kernel release" ["-r"],
        .switch "machine" "Print the machine hardware name" ["-m"]],
      [⟨"All info", "uname -a"⟩], false⟩
  | .whoami => ⟨"whoami", "Print the current user name", [], [], false⟩

def name (b : Builtin) : String := b.schema.name

/-- The command of this name. -/
def ofName? (name : String) : Option Builtin := all.find? (·.name = name)

def schemas : List Schema := all.map schema

/-- Each command is found by its name. -/
theorem ofName?_name (b : Builtin) : ofName? b.name = some b := by
  cases b <;> decide

end Builtin

end DesktopTerminal
