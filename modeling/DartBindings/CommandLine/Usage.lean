/-!
The texts that explain the command.
-/

set_option autoImplicit false

namespace DartBindings.CommandLine

def commandName : String := "native-bridge-generator"

/-- The short form: the options of the command. -/
def usageText : String :=
  "usage: native-bridge-generator [-h] [-C CONFIG_FILE]\n"
  ++ "                               [--project-root DIRECTORY] [--kotlin DIRECTORY]\n"
  ++ "                               [--swift DIRECTORY] [-o FILE] [--channel NAME]\n"
  ++ "                               [--event-prefix PREFIX] [--ignore-missing] [-q]\n"

/-- The long form: the options with what they are for, and examples. -/
def helpText : String :=
  usageText ++ "\n"
  ++ "Generate typed Dart bridge code from Kotlin and Swift sources\n"
  ++ "\n"
  ++ "options:\n"
  ++ "  -h, --help            show this help message and exit\n"
  ++ "  -C CONFIG_FILE, --config CONFIG_FILE\n"
  ++ "                        XML configuration file (channel names, source\n"
  ++ "                        directories, type mappings)\n"
  ++ "  --project-root DIRECTORY\n"
  ++ "                        Flutter project root (default: nearest parent\n"
  ++ "                        directory with pubspec.yaml)\n"
  ++ "  --kotlin DIRECTORY    Kotlin source directory (default:\n"
  ++ "                        android/app/src/main/kotlin)\n"
  ++ "  --swift DIRECTORY     Swift source directory (default: ios/Runner)\n"
  ++ "  -o FILE, --output FILE\n"
  ++ "                        Output Dart file, '-' for stdout (default:\n"
  ++ "                        lib/native_bridge.g.dart)\n"
  ++ "  --channel NAME        MethodChannel name shared with the native plugins\n"
  ++ "  --event-prefix PREFIX\n"
  ++ "                        Prefix of the EventChannel names used for streams\n"
  ++ "  --ignore-missing      Succeed even if neither source directory exists\n"
  ++ "  -q, --quiet           Only print warnings and errors\n"
  ++ "\n"
  ++ "Examples:\n"
  ++ "  native-bridge-generator\n"
  ++ "  native-bridge-generator --project-root my_app -o lib/bridge.g.dart\n"
  ++ "  native-bridge-generator --kotlin android/src --swift ios/Classes -o -\n"
  ++ "        \n"

end DartBindings.CommandLine
