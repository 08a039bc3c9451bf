import Barbaro.Core.Host

/-!
# The plates of the horse in motion

Density frames of a horse without its rider, in two sizes.

* `horseFrame`, `brandedHeroHorseFrame`: the plate with this index, and the one with the wordmark.
* `compactPlate_rows`: every compact plate has eight rows.
-/

namespace Barbaro.Tui

def horseRiderlessHeroFrames : List (List String) := [
  ["                                     ░▓████▓▒           ",
    "                                    ▓██████████▒        ",
    "                  ░░░             ░██████▀▀▀▀▀▀▀        ",
    "          ░░▒▒▓▓███████▓▓▓████▓▓▓███████▀               ",
    "   ▒░  ▒▓███▓▒█████████████████████████▓                ",
    "   ▒█████▓░  ░████████████████████████▒                 ",
    "    ░░░    ░░░▒██████████████████████░                  ",
    "          ░███████▓▒  ░▒▓▓██████████▓                   ",
    "          ░▓ ▒█▒            ░░░██▓▒░                    ",
    "          ▒▓   ▒▓░     ░░     ░█░                       ",
    "         ▓▒     ▓▓     ░▒▒▒▒░▒█░                        ",
    "              ░░░░        ░░░▓▓                         ",
    "          ░    ░    ░        ▓▓░      ░░░░░░░░░░░░░░ ░░░"],
  ["                                     ▓██████▓░          ",
    "                                    ▓██████████▒        ",
    "                 ░░▒▒▒░░░░░       ░██████░░▀▀▀▀▀        ",
    "            ░░░▒▓█████████████▓▓▓███████░               ",
    "        ▒▓██▓▒▒████████████████████████▒                ",
    "   ▓█▓▓███▓░  ░███████████████████████░                 ",
    "    ▓██▒        ▒▓███████████████████▓                  ",
    "                ░▓█▓██▒  ░▒▒▓▓██████▒                   ",
    "               ▒██░ ▓█         ██▒▒▓▓░                  ",
    "                 ░▒▒██▒░░     ▓█▒  ░▓█░                 ",
    "                    █░ ▒▒▓▓░░▓▓ ░▒░░                 ░  ",
    "                    ░  ▒▒▒▒▒░░             ░   ░░░░░░░░░",
    "                                           ░░  ░░░░░░░░░"],
  ["                                     ░██████▒░          ",
    "                                    ▒█████████▓▒        ",
    "                  ░▒▒▒░░░░        ░▓█████▀░▀▀▀▀▀        ",
    "               ░▒██████████▓▓▓▓▓▓███████▀               ",
    "        ░▒▓▓██▒▓███████████████████████▓                ",
    "   ░▓░▒██▓░▒▒▒ ▒███████████████████████                 ",
    "    ▓█▓▒        ▒▓████████████████████▒                 ",
    "                   ▒████▒░▒▓██████████▒                 ",
    "                  ░██░▒█░      ▒██░░░░▒▓▓               ",
    "                  ░░░▒▒██▓▒░    █░    ░▒░               ",
    "                        ░░▒▒▓▓▒▓▓  ▒▒▒░                 ",
    "░░                           ░░░                        ",
    "░░                                                   ░░░"],
  ["                                      ░▓█████▓░         ",
    "                                    ░▓█████████▓░       ",
    "                   ░▒▒▒▒░░        ░▓██████▀▀▀▀▀▓█▀      ",
    "               ░░▓█████████▓▓▓▒▒▒▓███████▀              ",
    "       ░▓██████▒████████████████████████▓               ",
    "     ░▓██▓▒░░░░ ▓███████████████████████░               ",
    "   ░▓█▓░         ▒█████████████████████▓░░░             ",
    "                   ░▒████▓▓▓███████████▓▓▒▒▓░           ",
    "                      ███▓       ░░░▒▓▓▒   ░▒           ",
    "                      ▒█▓▒▒▒▒▒▒░  ▒▒░░▒▒   ░▓           ",
    "                       ▒█▒    ░▒▒  ░░      ░░           ",
    "                ░░   ░  ░▓▓▒░                           ",
    "                 ░░       ░▓▓▓░                         "],
  ["                                       ▒▓███▓▒          ",
    "                                    ░▓█████████░        ",
    "                   ░░░░           ░▓██████▓▀▓████░      ",
    "              ░░░▓█████████▓▓▒▒░▒▓███████▀     ░▀       ",
    "      ░▓█████▓▒▓████████████████████████▀               ",
    "     ▓██▓▒░░░  ▓███████████████████████▓                ",
    "    ▒█▓░       ░███████████████████████▓░░░             ",
    "   ░░           ░████████▓█████████████████▓░           ",
    "                 ░██▒  ▓█░      ░░░     ▒▓░░▒▒░         ",
    "                ░██▒    ▓█▒░         ░▒▒▓     ░▓░       ",
    "                ▓█░       ░▒▒▒▒░░    ░░         ▒       ",
    "                 ▓▒          ░░░▒░                      ",
    "                  ▓▒░░                                  "],
  ["                                        ░▒▓██▓░         ",
    "                                     ░▓████████▓░    ░  ",
    "                                   ▒█████████████▒      ",
    "                ░░▒▓█▓▓▓▒▒▓▒▒▒▒▒▒▓████████▀  ░▀▀██░     ",
    "      ▒▓████▓▓▓██████████████████████████░              ",
    "   ░▓██▓▒░░   ▒█████████████████████████░               ",
    "   ██▒        ▒█████████████████████████▒░░░            ",
    "  ░▓          ▒███████▒▒▓█████████████████▓▒█░          ",
    "             ▒██▓░ ▒██      ░░░░░░░    ░▒▓▓▒█           ",
    "           ▓██▒     ██                     ▓█▓░         ",
    "          ▒█░       ▒█░                    ▒░ ░▒▓▒▒░    ",
    " ░       ▒█          ▒█░                         ░░░    ",
    "         ▓█░          ░█▒░░                            ░"],
  ["                                         ░░░▒▒░         ",
    "                                      ░░▓██████▓░       ",
    "                                   ▒▓████████████▓      ",
    "              ░░░░▒▒▒▒▒░░  ░░░▒▒▒▓█████████▀ ░▀▀▓█▓     ",
    "      ░░▒▓▓▓▓▓▓██████████████████████████▀       ░      ",
    "  ░▒████▓▓▒░  ░█████████████████████████▓               ",
    " ░▒▒░         ▓█████████████████████████▒               ",
    "            ░▓█████▓▒▒▒▒▓█████████████████▓▒▒░          ",
    "         ░▒▓▓▓███▓░         ░░░░░░░░ ░▒█▓ ░░░▒▒▒░       ",
    "       ░▓▓▒ ░▓█▓░                      ░▓▓      ░▒▒     ",
    "  ░░░▒▓▒░   ▓▓                           ▓▓       ░░    ",
    "  ▒▒▒░░  ░  █▒    ░                       ░▓▒           ",
    "        ░░ ░█▓░░  ░░                       ░▓▒░░       ░"],
  ["                                         ░░ ░▒░         ",
    "                                       ░▒██▓▓██▓░       ",
    "                                   ░▓████████████▒      ",
    "             ░░░▒▒▒▒▒▒▒░░░░░░░▒▒▒▓█████████▀▀░▀▀▓██░    ",
    "  ░░░░░░▒▒▓▓█▓▒▓██████████████████████████▀       ▀     ",
    " ░▓███████▓▒░ ░██████████████████████████░              ",
    "      ░       ▓██████████████████████████░              ",
    "          ░░▒▓████▓░░░░▒▓█████████████████▒░            ",
    "       ░▒▓▓▓███▒           ░░░░░░▒▒░▒█▓ ░░▒▓▓▒░         ",
    "  ▒▒▒▓▒▒░ ░█▓░                       █▒      ░░░░░░     ",
    "  ░░░    ▒▓░                         █▒          ░░ ░   ",
    "      ░▒▓▒                           ▒▓                 ",
    "     ░▓▒                              ▓░                "],
  ["                                         ▒▓▓█▓▓░        ",
    "                                    ░░░▒▓███████▒       ",
    "                                   ▒▓█████████████▒     ",
    "            ▒▒▒▓▓▓▓▓▓▓▓▒▒▒░▒▒▒▒▒▒▓█████████▓▀░▀▀▀▓█▀    ",
    "  ▒▓▒▓▓▒▒▓██▓▒▒███████████████████████████▀             ",
    "    ▒▓██▓▓▒   ▒██████████████████████████░              ",
    "              ▓█████████████████████████▒               ",
    "         ░▓███████▓▒   ░▒▓██████████████▓               ",
    "        ▓██▓▓▒░             ░░░░▒██▓░░░▒██▒             ",
    "   ░▓▓▓█▓░░                     ▓▓░      ░▓▓▒           ",
    "   ░░▒░                        █▓          ░▓▓░         ",
    "                             ░▓░             ░▒▓▒░░     ",
    "                             ▓▓            ▒    ░▓▒     "],
  ["                                       ▒▒▓███▒          ",
    "                                    ░░▓████████▒        ",
    "                 ░░░░░            ░▓███████▀▓████░      ",
    "   ░░     ░▒▓▓▓██████████▓▓▓▓▓▒▒▒▓███████▀     ░░       ",
    "   ░▓███████▓░▓█████████████████████████▀               ",
    "     ▓▓▓▓▒░   ░████████████████████████░                ",
    "           ▒▒▒▒███████████████████████▒                 ",
    "          █▓▓██▓▓▓▓▒░  ░▒▓▓██████████▒                  ",
    "        ░▓░  ▒▒                █████░                   ",
    "      ▓▒▒░   ░█               ▓█░ █▓                    ",
    "             ▒░        ░░░░░░▓▓   ▓▓                    ",
    "░                     ░▒▒▒░░░░    ░█                   ░",
    "░                                  █▓▒░                 "],
  ["                                      ░███████▓         ",
    "                                    ▒▒██████████▓░      ",
    "                  ░▒▒▒▒▒░░        ░▓██████▓░░▀▀▀▀▀      ",
    "    ░▒▒▒▒▒▒▒▒▒▓▓▓██████████▓▓▓▒▒▒▓████████              ",
    "    ▒█████████▓▒█████████████████████████░              ",
    "     ▒███▓▒░    ▓██████████████████████▓                ",
    "              ░ ░██████████████████████                 ",
    "              ▓██▒██▓▒   ░░▒▒▓▓▓█████▓                  ",
    "               ░▓▓██░          ▒█▓█▓                    ",
    "                 █░░▒▒▓▒     ▓██░ █▓                    ",
    "                 ▓░   ░█░  ░▒▒░░░▒▒░                    ",
    "                          ▒▓░                           ",
    "                         ░█░                            "]]

def horseRiderlessCompactFrames : List (List String) := [
  ["                       ░▓███▓▒░     ",
    "           ░░░        ▒███▀▀▀▀▀     ",
    "  ░ ░▒▒▓▓████████████████▓          ",
    "  ▒▓▓▓▒░░███████████████▒           ",
    "       ▓▓█▓▓▒░▒▓▓██████▓            ",
    "      ░▓░▒░        ░█▒              ",
    "     ░▒░  ▒░   ░▒░░▓░               ",
    "        ░░ ░ ░    ▒▓     ░  ░░░░░░░░"],
  ["                       ░█████▓░     ",
    "           ░▒▒░░░    ░▒███▀▀▀▀▀     ",
    "     ░▒▒▒▒███████████████▀          ",
    "  ▓▓▓▓▒░ ░██████████████▓           ",
    "   ░░     ░▓▓█▒░▒▓▓▓███▓            ",
    "          ▒▒░█░    ░█░▒▓░           ",
    "            ░▒░▒▓░░▒░░ ░░         ░ ",
    "               ░░░         ░░ ░░░░░░"],
  ["                       ░▓████▒      ",
    "           ░▒▒░░░     ▒███▀▀▀▀▀     ",
    "      ░▒▒▒▓██████████████▓          ",
    "  ░▒▓▓░░▒░███████████████           ",
    "   ░       ░▓██▓▒▓██████▓           ",
    "            ▓▒▓█░   ▓▓ ░░▓░         ",
    "               ░▒▒▒░▒  ░░           ",
    "░░                                  "],
  ["                        ▒█████░     ",
    "            ░▒▒░░     ▒████▀▀▀▀▒    ",
    "     ▒▒▒▓▒▓███████████████▀         ",
    "  ░▒█▓▒░░ ▒███████████████          ",
    "  ░▒        ▒▓██▓▓▓██████▒▒▒░       ",
    "              ▓█▒░░░  ▒▒▒▒  ▒       ",
    "              ░▓▒░░░▒ ░░    ░       ",
    "          ░░    ░▒▒░                "],
  ["                        ░▓███▓      ",
    "            ░░░░░     ▒████▀▀█▓░    ",
    "    ░▒▒▒▒░▓████████▓▓█████░         ",
    "   ▓█▓░░ ░███████████████▓          ",
    "  ░░      ░█████▓▓███████▓█▓░       ",
    "           ▓▓  ▓▒       ░▒▒ ░░░     ",
    "          ▒█    ░░░░░   ░░    ░░    ",
    "           ▒▒░      ░               "],
  ["                         ░▓██▓░     ",
    "                      ░▓███████▓    ",
    "    ░▒▒▒▒▒▓▓████▓██▓▓█████▀   ░▀░   ",
    "  ▓█▓▒░░ ▓████████████████          ",
    "  ▒      ▓████▓▓███████████▓▒       ",
    "       ░▓▓░ ░█            ░▒█░      ",
    "      ░▓░    ▓▒            ░▒░▒░░   ",
    "░     █░      ▒▒░               ░  ░"],
  ["                          ▒▒▓▓░     ",
    "                      ░▓▓██████▓░   ",
    "     ░░▒▒▒▓▓██▓▓▒▓▓▓▓██████▀   ▀▀   ",
    " ░▒▓▓▒▒░ ▓████████████████          ",
    "        ░███▓▒▒▓██████████▒▒░░      ",
    "     ░▒▒▓█▓░            ░▓▒  ░░░░   ",
    " ░░▒▒░ ░▓                 ░▒    ░   ",
    " ░░░   ▒▓  ░░              ░▒░     ░"],
  ["                          ▒▒▒▓░     ",
    "                      ░▒▓▓█████▓░   ",
    "  ░░░░░▒▒▒▓▓▓▓▓▓▓▓▓▓▓██████▀  ░▀▀   ",
    " ▒▓▓▓▓▒░ ▓████████████████▒         ",
    "       ░▒██▓▒▒▒▓██████████▓░        ",
    "  ░░░░▒██▒           ░ ▒█  ░▒░░     ",
    " ░░░ ░▒░                ▓           ",
    "    ▒▒                  ▒░          "],
  ["                          ▓███▒     ",
    "                      ░▓████████▒   ",
    " ░░░░░▒▒▒▒█████▓▓▓▓▓▓██████▀   ░▀   ",
    "  ░▒▓▒░░ ▓████████████████▒         ",
    "      ▒▓▓███▒░░▒▓█████████░         ",
    "  ░░▒▓▓▒░           ░█▒  ░▓▓░       ",
    "  ░▒░               ▒      ░▒▒░     ",
    "                  ░▓          ▒▒░   "],
  ["                        ░▓███▒      ",
    "          ░░░░░       ▒████▓▀██▒    ",
    "  ░▓▒▒▓▓▒▓██████████▓█████▀         ",
    "   ▒▓▒░░ ▒███████████████░          ",
    "      ░▓▓▓▓▓▓░░▒▓███████░           ",
    "    ░▒░ ░▒         ▒█▒█░            ",
    "        ░░     ░░░░▓  ▓             ",
    "               ░░░    ▒▒░           "],
  ["                        ░█████▒     ",
    "           ░▒▒▒░░     ▒████▀▀▀▀▀    ",
    "   ▓████▓▓████████████████▀         ",
    "   ░▓▓▒░  ▒██████████████▒          ",
    "         ▓▓▓█▓░░▒▒▓▓███▓▒           ",
    "          ▒▓▒░░    ▒▓▒█             ",
    "           ▒  ▒▒ ░▒▒░░░             ",
    "                ▒▓                  "]]

inductive HorseScale
  | hero
  | compact
  deriving DecidableEq, Repr

def riderlessFrames : HorseScale → List (List String)
  | .hero => horseRiderlessHeroFrames
  | .compact => horseRiderlessCompactFrames

/-- `horseFrame` of the riderless variant: the plate at a stable modulo index. -/
def horseFrame (frameIndex : ℤ) (scale : HorseScale) : Except Failure (List String) :=
  if frameIndex.natAbs > maxSafeInteger then .error (.typeError "frameIndex must be an integer")
  else .ok (((riderlessFrames scale)[(frameIndex % (riderlessFrames scale).length).toNat]?).getD [])

def horseBrandWordmark : String := "b a r b a r o"

/-- `applyWordmark` of a hero plate: the mark is carved into the middle of its sixth row. -/
def applyWordmark (art : List String) : List String :=
  let start := 25 - horseBrandWordmark.length / 2
  art.mapIdx fun index line =>
    if index ≠ 5 then line
    else .ofList (line.toList.take start ++ horseBrandWordmark.toList ++
      line.toList.drop (start + horseBrandWordmark.length))

/-- The product mark carved into the shared solid flank of every hero plate. -/
def brandedHeroHorseFrame (frameIndex : ℤ) : Except Failure (List String) := do
  let art ← horseFrame frameIndex .hero
  return applyWordmark art

theorem compactPlate_rows {plate : List String} (h : plate ∈ horseRiderlessCompactFrames) : plate.length = 8 := by
  have hall : horseRiderlessCompactFrames.all (fun plate => plate.length == 8) = true := by decide
  simpa using List.all_eq_true.1 hall plate h

end Barbaro.Tui
