namespace TinyC.Manual

def version : String :=
  "1.0.0"

def exports : List String :=
  ["__version__",
    "MiniCCompiler", "CompilerOptions", "CompilerResult", "compile_c", "compile_file",
    "MiniCError", "CompileError", "CLexicalError", "CSyntaxError", "CCodeGenError", "ErrorKind",
    "SourceLocation",
    "Lexer", "Token", "TokenKind", "KEYWORDS",
    "Parser", "parse_source",
    "CodeGenerator", "AssemblyWriter",
    "ASTNode", "Function", "Return", "BinaryOperation", "UnaryOperation", "IntLiteral",
    "BinaryOperator", "UnaryOperator", "ASTPrinter"]

def versionText : String :=
  "mcc, version " ++ version

def usage : String :=
  "Usage: mcc [OPTIONS] INPUT_FILE"

def hint : String :=
  "Try 'mcc --help' for help."

def helpLines : List String :=
  [usage,
    "",
    "  Compile a minic source file to x86 assembly.",
    "",
    "  INPUT_FILE is the C source file (.c) to compile.",
    "",
    "  Examples:",
    "      mcc return_2.c               # Outputs return_2.s",
    "      mcc return_2.c -o out.s      # Specify output file",
    "      mcc --ast return_2.c         # Show the parse tree",
    "",
    "Options:",
    "  -o, --output FILE           Output assembly file (default: input with .s",
    "                              extension)",
    "  -t, --target [i386|x86_64]  Stack convention of the generated code  [default:",
    "                              x86_64]",
    "  --symbol-prefix TEXT        Prefix for the function symbol ('_' for macOS)",
    "  --comments                  Annotate the generated assembly with comments",
    "  --tokens                    Print the token stream and exit (for debugging)",
    "  --ast                       Print AST and exit (for debugging)",
    "  -v, --verbose               Verbose output",
    "  --version                   Show the version and exit.",
    "  --help                      Show this message and exit."]

def helpText : String :=
  "\n".intercalate helpLines

end TinyC.Manual
