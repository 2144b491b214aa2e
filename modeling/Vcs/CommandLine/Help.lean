/-!
# Help

What the program says about itself.
-/

namespace Vcs.CommandLine

def versionText : String := "vcs 0.1.0"

def usageText : String := "Usage: vcs [OPTIONS] <ROM>"

def helpText : String :=
  "Runs a cartridge of the video computer system.\n\n" ++ usageText ++ "\n\n" ++
  "Arguments:\n" ++
  "  <ROM>                  Cartridge image (2K, 4K, 8K, 16K, 32K, or 3F in 2K slices)\n\n" ++
  "Options:\n" ++
  "      --frames <N>       Frames to run [default: 200]\n" ++
  "      --tv <TV>          Television standard, ntsc or pal; detected if omitted\n" ++
  "      --height <N>       Visible scanlines; detected if omitted\n" ++
  "      --y-start <N>      First visible scanline\n" ++
  "      --seed <N>         Seed for power-on memory and timer contents\n" ++
  "      --no-hmove-blanks  Do not blank the left edge after early motion strobes\n" ++
  "      --screenshot <F>   Save the last frame as a PNG\n" ++
  "      --record <DIR>     Save every frame as a PNG under DIR/frames\n" ++
  "      --audio-log <F>    Save the writes to the sound registers, one per line\n" ++
  "  -v, --verbose          More logging (repeatable)\n" ++
  "  -q, --quiet            Errors only\n" ++
  "  -h, --help             Print help\n" ++
  "  -V, --version          Print version"

end Vcs.CommandLine
