/-!
# `AccumulatorMachine.CommandLine.Usage`: the texts that explain the command line

The usage stands in front of every complaint about the words of the
command line; the help is printed on request. Both are set for lines
of 80 characters.
-/

set_option autoImplicit false

namespace AccumulatorMachine.CommandLine

/-- The name that the program goes by. -/
def programName : String := "bootcode"

/-- The summary of the flags. -/
def usage : String :=
  "usage: bootcode [-h] [--acc ACC] [--workers WORKERS] [--verbose] [--dump-only]\n"
    ++ "                [--stats-only] [--no-repair] [--survey] [--json]\n"
    ++ "                [file]\n"

/-- The explanation of every flag. -/
def help : String :=
  usage
    ++ "\n"
    ++ "Run an acc/jmp/nop listing and repair it if it loops\n"
    ++ "\n"
    ++ "positional arguments:\n"
    ++ "  file                  Listing file to run\n"
    ++ "\n"
    ++ "options:\n"
    ++ "  -h, --help            show this help message and exit\n"
    ++ "  --acc ACC, -a ACC     Initial accumulator (default: 0)\n"
    ++ "  --workers WORKERS, -w WORKERS\n"
    ++ "                        Threads for the repair search (default: 0, sequential)\n"
    ++ "  --verbose, -v         Print the program, each step and pipeline statistics\n"
    ++ "  --dump-only           Only print the canonical listing\n"
    ++ "  --stats-only          Only print opcode counts\n"
    ++ "  --no-repair           Execute without repair search\n"
    ++ "  --survey              Print the outcome of every mutation\n"
    ++ "  --json                Print results as JSON\n"

end AccumulatorMachine.CommandLine
