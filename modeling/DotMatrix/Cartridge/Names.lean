/-!
# Names in the header

The header gives the kind of cartridge and its publisher as codes. These tables are the published
ones; a code that is missing from them is unknown.
-/

namespace DotMatrix.Cartridge

/-- The name of a kind of cartridge. -/
def kindName (kind : UInt8) : String :=
  match kind.toNat with
  | 0x00 => "ROM ONLY"
  | 0x01 => "MBC1"
  | 0x02 => "MBC1+RAM"
  | 0x03 => "MBC1+RAM+BATTERY"
  | 0x05 => "MBC2"
  | 0x06 => "MBC2+BATTERY"
  | 0x08 => "ROM+RAM"
  | 0x09 => "ROM+RAM+BATTERY"
  | 0x0B => "MMM01"
  | 0x0C => "MMM01+RAM"
  | 0x0D => "MMM01+RAM+BATTERY"
  | 0x0F => "MBC3+TIMER+BATTERY"
  | 0x10 => "MBC3+TIMER+RAM+BATTERY"
  | 0x11 => "MBC3"
  | 0x12 => "MBC3+RAM"
  | 0x13 => "MBC3+RAM+BATTERY"
  | 0x19 => "MBC5"
  | 0x1A => "MBC5+RAM"
  | 0x1B => "MBC5+RAM+BATTERY"
  | 0x1C => "MBC5+RUMBLE"
  | 0x1D => "MBC5+RUMBLE+RAM"
  | 0x1E => "MBC5+RUMBLE+RAM+BATTERY"
  | 0x20 => "MBC6"
  | 0x22 => "MBC7+SENSOR+RUMBLE+RAM+BATTERY"
  | 0xFC => "POCKET CAMERA"
  | 0xFD => "BANDAI TAMA5"
  | 0xFE => "HuC3"
  | 0xFF => "HuC1+RAM+BATTERY"
  | _ => "Unknown"

/-- The kinds that keep their RAM alive with a battery. -/
def batteryKinds : List UInt8 :=
  [0x03, 0x06, 0x09, 0x0D, 0x0F, 0x10, 0x13, 0x1B, 0x1E, 0x22, 0xFF]

/-- Publishers by their code of two characters. -/
def publishers : List (String × String) :=
  [("00", "None"), ("01", "Nintendo R&D1"), ("08", "Capcom"), ("13", "Electronic Arts"),
    ("18", "Hudson Soft"), ("19", "b-ai"), ("20", "kss"), ("22", "pow"), ("24", "PCM Complete"),
    ("25", "san-x"), ("28", "Kemco Japan"), ("29", "seta"), ("30", "Viacom"), ("31", "Nintendo"),
    ("32", "Bandai"), ("33", "Ocean/Acclaim"), ("34", "Konami"), ("35", "Hector"),
    ("37", "Taito"), ("38", "Hudson"), ("39", "Banpresto"), ("41", "Ubi Soft"), ("42", "Atlus"),
    ("44", "Malibu"), ("46", "angel"), ("47", "Bullet-Proof"), ("49", "irem"), ("50", "Absolute"),
    ("51", "Acclaim"), ("52", "Activision"), ("53", "American sammy"), ("54", "Konami"),
    ("55", "Hi tech entertainment"), ("56", "LJN"), ("57", "Matchbox"), ("58", "Mattel"),
    ("59", "Milton Bradley"), ("60", "Titus"), ("61", "Virgin"), ("64", "LucasArts"),
    ("67", "Ocean"), ("69", "Electronic Arts"), ("70", "Infogrames"), ("71", "Interplay"),
    ("72", "Broderbund"), ("73", "sculptured"), ("75", "sci"), ("78", "THQ"), ("79", "Accolade"),
    ("80", "misawa"), ("83", "lozc"), ("86", "Tokuma Shoten Intermedia"),
    ("87", "Tsukuda Original"), ("91", "Chunsoft"), ("92", "Video system"),
    ("93", "Ocean/Acclaim"), ("95", "Varie"), ("96", "Yonezawa/s'pal"), ("97", "Kaneko"),
    ("99", "Pack in soft"), ("9H", "Bottom Up"), ("A4", "Konami (Yu-Gi-Oh!)"), ("BL", "MTO"),
    ("DK", "Kodansha")]

/-- The publisher with a code of two bytes. -/
def publisherName (first second : UInt8) : String :=
  let code := String.ofList [Char.ofNat first.toNat, Char.ofNat second.toNat]
  (publishers.lookup code).getD "Unknown"

end DotMatrix.Cartridge
