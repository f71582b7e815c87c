import Lexing.Text.Lines

/-!
# Help texts
-/

namespace Lexing.CommandLine

def usage : String :=
  Text.ofLines
    ["lexis - token stream inspector",
     "",
     "Usage: lexis <command> [arguments]",
     "",
     "Commands:",
     "  lex <file> [options]   Print every token in <file>",
     "  help                   Show this message",
     "",
     "Set RUST_LOG=lexis_core=trace to log each token as it is scanned."]

def lexUsage : String := Text.ofLines ["Usage: lexis lex <file> [options]"]

def lexOptions : String :=
  Text.ofLines
    ["Options:",
     "  --ignore-line-breaks          Omit LineBreak tokens",
     "  --line-tracking=<mode>        whitespace (default) or line-break",
     "  --buffer-capacity=<n>         Initial token buffer size in characters",
     "  --no-buffer-growth            Fail on tokens longer than the buffer",
     "  --json                        Print tokens as a JSON array"]

end Lexing.CommandLine
