import AdaToC.Encoding.DoubleByte
import AdaToC.Encoding.SingleByte
import AdaToC.Encoding.Unicode
import AdaToC.Text.Blank
import AdaToC.Text.Case
import AdaToC.Text.Quoted

/-!
# Reading source text

Source files may be in any of the encodings that have a label. The label `auto`, and the empty
label, stand for a guess: well-formed UTF-8 is taken as it is and anything else is read as Latin-1.
Labels are compared without regard to case and to white space around them.
-/

namespace AdaToC

/-- How the bytes of a source file stand for characters. -/
inductive Encoding where
  | utf8
  | utf16 (order : Encoding.ByteOrder)
  /-- A single-byte encoding, by the code points of the bytes 0x80 to 0xFF. -/
  | singleByte (upper : List Nat)
  | doubleByte (e : Encoding.DoubleByte)
  | iso2022Jp
  /-- The encoding of text that must not be read: whatever the data, one replacement character. -/
  | replacement

namespace Encoding

/-- The character of a byte in a single-byte encoding. -/
def singleByteChar (upper : List Nat) (b : UInt8) : Char :=
  if b < 0x80 then Char.ofNat b.toNat
  else Char.ofNat (upper.getD (b.toNat - 0x80) replacementChar.toNat)

/-- The text of some data, as UTF-8. -/
def read (tables : Tables) : Encoding → Bytes → Bytes
  | .utf8, data => repair data
  | .utf16 order, data => readUtf16 order data
  | .singleByte upper, data => Utf8.encodeAll (data.map (singleByteChar upper))
  | .doubleByte e, data => Utf8.encodeAll (e.chars tables data)
  | .iso2022Jp, data => Utf8.encodeAll (iso2022JpChars tables .ascii data)
  | .replacement, _ => Utf8.encode replacementChar

/-- The labels of each encoding, in lower case. -/
def labels : List (Encoding × List String) :=
  [(.utf8,
    ["unicode-1-1-utf-8", "unicode11utf8", "unicode20utf8", "utf-8", "utf8", "x-unicode20utf8"]),
   (.singleByte SingleByte.ibm866,
    ["866", "cp866", "csibm866", "ibm866"]),
   (.singleByte SingleByte.iso8859Part2,
    ["csisolatin2", "iso-8859-2", "iso-ir-101", "iso8859-2", "iso88592", "iso_8859-2",
     "iso_8859-2:1987", "l2", "latin2"]),
   (.singleByte SingleByte.iso8859Part3,
    ["csisolatin3", "iso-8859-3", "iso-ir-109", "iso8859-3", "iso88593", "iso_8859-3",
     "iso_8859-3:1988", "l3", "latin3"]),
   (.singleByte SingleByte.iso8859Part4,
    ["csisolatin4", "iso-8859-4", "iso-ir-110", "iso8859-4", "iso88594", "iso_8859-4",
     "iso_8859-4:1988", "l4", "latin4"]),
   (.singleByte SingleByte.iso8859Part5,
    ["csisolatincyrillic", "cyrillic", "iso-8859-5", "iso-ir-144", "iso8859-5", "iso88595",
     "iso_8859-5", "iso_8859-5:1988"]),
   (.singleByte SingleByte.iso8859Part6,
    ["arabic", "asmo-708", "csiso88596e", "csiso88596i", "csisolatinarabic", "ecma-114",
     "iso-8859-6", "iso-8859-6-e", "iso-8859-6-i", "iso-ir-127", "iso8859-6", "iso88596",
     "iso_8859-6", "iso_8859-6:1987"]),
   (.singleByte SingleByte.iso8859Part7,
    ["csisolatingreek", "ecma-118", "elot_928", "greek", "greek8", "iso-8859-7", "iso-ir-126",
     "iso8859-7", "iso88597", "iso_8859-7", "iso_8859-7:1987", "sun_eu_greek"]),
   (.singleByte SingleByte.iso8859Part8,
    ["csiso88598e", "csisolatinhebrew", "hebrew", "iso-8859-8", "iso-8859-8-e", "iso-ir-138",
     "iso8859-8", "iso88598", "iso_8859-8", "iso_8859-8:1988", "visual"]),
   (.singleByte SingleByte.iso8859Part8,
    ["csiso88598i", "iso-8859-8-i", "logical"]),
   (.singleByte SingleByte.iso8859Part10,
    ["csisolatin6", "iso-8859-10", "iso-ir-157", "iso8859-10", "iso885910", "l6", "latin6"]),
   (.singleByte SingleByte.iso8859Part13,
    ["iso-8859-13", "iso8859-13", "iso885913"]),
   (.singleByte SingleByte.iso8859Part14,
    ["iso-8859-14", "iso8859-14", "iso885914"]),
   (.singleByte SingleByte.iso8859Part15,
    ["csisolatin9", "iso-8859-15", "iso8859-15", "iso885915", "iso_8859-15", "l9"]),
   (.singleByte SingleByte.iso8859Part16,
    ["iso-8859-16"]),
   (.singleByte SingleByte.koi8R,
    ["cskoi8r", "koi", "koi8", "koi8-r", "koi8_r"]),
   (.singleByte SingleByte.koi8U,
    ["koi8-ru", "koi8-u"]),
   (.singleByte SingleByte.macintosh,
    ["csmacintosh", "mac", "macintosh", "x-mac-roman"]),
   (.singleByte SingleByte.windows874,
    ["dos-874", "iso-8859-11", "iso8859-11", "iso885911", "tis-620", "windows-874"]),
   (.singleByte SingleByte.windows1250,
    ["cp1250", "windows-1250", "x-cp1250"]),
   (.singleByte SingleByte.windows1251,
    ["cp1251", "windows-1251", "x-cp1251"]),
   (.singleByte SingleByte.windows1252,
    ["ansi_x3.4-1968", "ascii", "cp1252", "cp819", "csisolatin1", "ibm819", "iso-8859-1",
     "iso-ir-100", "iso8859-1", "iso88591", "iso_8859-1", "iso_8859-1:1987", "l1", "latin1",
     "us-ascii", "windows-1252", "x-cp1252"]),
   (.singleByte SingleByte.windows1253,
    ["cp1253", "windows-1253", "x-cp1253"]),
   (.singleByte SingleByte.windows1254,
    ["cp1254", "csisolatin5", "iso-8859-9", "iso-ir-148", "iso8859-9", "iso88599", "iso_8859-9",
     "iso_8859-9:1989", "l5", "latin5", "windows-1254", "x-cp1254"]),
   (.singleByte SingleByte.windows1255,
    ["cp1255", "windows-1255", "x-cp1255"]),
   (.singleByte SingleByte.windows1256,
    ["cp1256", "windows-1256", "x-cp1256"]),
   (.singleByte SingleByte.windows1257,
    ["cp1257", "windows-1257", "x-cp1257"]),
   (.singleByte SingleByte.windows1258,
    ["cp1258", "windows-1258", "x-cp1258"]),
   (.singleByte SingleByte.macCyrillic,
    ["x-mac-cyrillic", "x-mac-ukrainian"]),
   (.doubleByte .gbk,
    ["chinese", "csgb2312", "csiso58gb231280", "gb2312", "gb_2312", "gb_2312-80", "gbk",
     "iso-ir-58", "x-gbk"]),
   (.doubleByte .gb18030,
    ["gb18030"]),
   (.doubleByte .big5,
    ["big5", "big5-hkscs", "cn-big5", "csbig5", "x-x-big5"]),
   (.doubleByte .eucJp,
    ["cseucpkdfmtjapanese", "euc-jp", "x-euc-jp"]),
   (.iso2022Jp,
    ["csiso2022jp", "iso-2022-jp"]),
   (.doubleByte .shiftJis,
    ["csshiftjis", "ms932", "ms_kanji", "shift-jis", "shift_jis", "sjis", "windows-31j",
     "x-sjis"]),
   (.doubleByte .eucKr,
    ["cseuckr", "csksc56011987", "euc-kr", "iso-ir-149", "korean", "ks_c_5601-1987",
     "ks_c_5601-1989", "ksc5601", "ksc_5601", "windows-949"]),
   (.replacement,
    ["csiso2022kr", "hz-gb-2312", "iso-2022-cn", "iso-2022-cn-ext", "iso-2022-kr",
     "replacement"]),
   (.utf16 .big,
    ["unicodefffe", "utf-16be"]),
   (.utf16 .little,
    ["csunicode", "iso-10646-ucs-2", "ucs-2", "unicode", "unicodefeff", "utf-16", "utf-16le"]),
   (.singleByte SingleByte.userDefined,
    ["x-user-defined"])]

/-- The encoding with a given label. -/
def ofLabel? (label : Bytes) : Option Encoding :=
  let wanted := label.trim.lower
  (labels.find? fun (_, names) => names.any fun name => bytes name == wanted).map (·.1)

/-- Why data could not be read. -/
inductive Error where
  | unknownLabel (label : Bytes)
  deriving DecidableEq, Repr

def Error.message : Error → Bytes
  | .unknownLabel label =>
    bytes "unknown encoding " ++ label.quoted ++ bytes ": htmlindex: invalid encoding name"

/-- The label that asks for a guess. -/
def auto : Bytes := bytes "auto"

/-- The text of some data whose encoding is guessed. -/
def readAuto (data : Bytes) : Bytes :=
  if Utf8.isValid data then data else latin1 data

/-- The text of some data in the encoding with a given label. -/
def decode (data label : Bytes) (tables : Tables := {}) : Except Error Bytes :=
  if label.isEmpty || label.equalFold auto then .ok (readAuto data)
  else
    match ofLabel? label with
    | some e => .ok (e.read tables data)
    | none => .error (.unknownLabel label)

end Encoding

end AdaToC
