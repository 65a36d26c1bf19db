import Accrual.Text.CodePage
import Accrual.Text.Numeral

/-!
# Encodings

A file holds a text in UTF-8, and it can be read in another encoding: byte by byte, by a code page
or its lower half alone, or in units of two or four bytes. Reading stops at the first bytes that
stand for nothing.
-/

namespace Accrual.Text

/-- Which byte of a unit comes first. -/
inductive ByteOrder
  | little
  | big
  deriving DecidableEq

def ByteOrder.suffix : ByteOrder → String
  | little => "le"
  | big => "be"

/-- The number that bytes stand for. -/
def ByteOrder.number (order : ByteOrder) (bytes : List Nat) : Nat :=
  let bytes := match order with
    | little => bytes.reverse
    | big => bytes
  bytes.foldl (fun n byte => 256 * n + byte) 0

inductive Encoding
  /-- The encoding that files are written in. A mark of the byte order in front of the text may be
  left out. -/
  | utf8 (dropsMark : Bool)
  /-- Without a given order, the order is told by a mark in front of the text. -/
  | utf16 (order : Option ByteOrder)
  | utf32 (order : Option ByteOrder)
  | paged (page : CodePage)
  /-- The lower half of all code pages. What upper bytes stand for is told by no page. -/
  | lowerHalf (name reason : String)
  /-- Nothing can be read in it. -/
  | void

/-- Bytes that stand for nothing, and where they are. -/
structure Misreading where
  bytes : List Nat
  position : Nat
  reason : String

def Misreading.message (encoding : String) (m : Misreading) : String :=
  let place := match m.bytes with
    | [byte] => " byte 0x" ++ String.ofList (hexadecimal 2 byte) ++ " in position " ++
        toString m.position
    | bytes => " bytes in position " ++ toString m.position ++ "-" ++
        toString (m.position + bytes.length - 1)
  "'" ++ encoding ++ "' codec can't decode" ++ place ++ ": " ++ m.reason

namespace Encoding

/-! ## Names -/

/-- The name by which an encoding is looked up: in small letters, with one underscore for whatever
stands between letters, digits and points. -/
def key : List Char → List Char
  | [] => []
  | c :: rest =>
      let after := key rest
      if isNameChar c then c.toLower :: after
      else if after.isEmpty || after.head? == some '_' then after
      else '_' :: after
where
  isNameChar (c : Char) : Bool := c.isAlphanum || c == '.'

def keyOf (name : String) : String := String.ofList ((key name.toList).dropWhile (· == '_'))

/-- Names of encodings in which upper bytes stand for characters only in company. -/
def manyByteNames : List (String × List String) :=
  [("shift_jis", ["shift_jis", "csshiftjis", "s_jis", "shiftjis", "sjis", "x_mac_japanese"]),
    ("cp932", ["cp932", "932", "ms932", "ms_kanji", "mskanji"]),
    ("euc_jp", ["euc_jp", "eucjp", "u_jis", "ujis"]),
    ("gbk", ["gbk", "936", "cp936", "ms936"]),
    ("gb2312", ["gb2312", "chinese", "csiso58gb231280", "euc_cn", "euccn", "eucgb2312_cn",
      "gb2312_1980", "gb2312_80", "iso_ir_58", "x_mac_simp_chinese"]),
    ("gb18030", ["gb18030", "gb18030_2000"]),
    ("big5", ["big5", "big5_tw", "csbig5", "x_mac_trad_chinese"]),
    ("euc_kr", ["euc_kr", "euckr", "korean", "ks_c_5601", "ks_c_5601_1987", "ks_x_1001", "ksc5601",
      "ksx1001", "x_mac_korean"]),
    ("cp949", ["cp949", "949", "ms949", "uhc"])]

def named : List (List String × Encoding) :=
  [(["utf_8", "utf8", "utf", "u8", "cp65001", "utf8_ucs2", "utf8_ucs4", "locale"], utf8 false),
    (["utf_8_sig"], utf8 true),
    (["utf_16", "utf16", "u16"], utf16 none),
    (["utf_16_le", "utf_16le", "unicodelittleunmarked"], utf16 (some .little)),
    (["utf_16_be", "utf_16be", "unicodebigunmarked"], utf16 (some .big)),
    (["utf_32", "utf32", "u32"], utf32 none),
    (["utf_32_le", "utf_32le"], utf32 (some .little)),
    (["utf_32_be", "utf_32be"], utf32 (some .big)),
    (["ascii", "646", "ansi_x3.4_1968", "ansi_x3.4_1986", "ansi_x3_4_1968", "cp367", "csascii",
      "ibm367", "iso646_us", "iso_646.irv_1991", "iso_ir_6", "us", "us_ascii", "idna"],
      lowerHalf "ascii" "ordinal not in range(128)"),
    (["utf_7", "utf7", "u7", "unicode_1_1_utf_7"],
      lowerHalf "utf7" "unexpected special character"),
    (["undefined"], void)] ++
  CodePage.all.map (fun page => (page.names, paged page)) ++
  manyByteNames.map (fun n => (n.2, lowerHalf n.1 "illegal multibyte sequence"))

def ofName? (name : String) : Option Encoding :=
  (named.find? fun entry => entry.1.contains (keyOf name)).map Prod.snd

/-- Names of encodings that bytes are read in as other bytes, and not as a text. -/
def noTextNames : List String :=
  ["hex", "hex_codec", "base64", "base_64", "base64_codec", "bz2", "bz2_codec", "zip", "zlib",
    "zlib_codec", "quopri", "quoted_printable", "quotedprintable", "quopri_codec", "rot13",
    "rot_13", "uu", "uu_codec"]

def isNoText (name : String) : Bool := noTextNames.contains (keyOf name)

/-! ## Reading -/

def readBytes (char? : Nat → Option Char) (reason : String) :
    Nat → List Nat → Except Misreading (List Char)
  | _, [] => .ok []
  | position, byte :: rest =>
      match char? byte with
      | some c => do return c :: (← readBytes char? reason (position + 1) rest)
      | none => .error ⟨[byte], position, reason⟩

def isFirstHalf (unit : Nat) : Bool := 0xd800 ≤ unit && unit < 0xdc00

def isSecondHalf (unit : Nat) : Bool := 0xdc00 ≤ unit && unit < 0xe000

/-- Reads in units of two bytes. A character beyond them takes two units. -/
def readUtf16 (order : ByteOrder) : Nat → List Nat → Except Misreading (List Char)
  | _, [] => .ok []
  | position, [byte] => .error ⟨[byte], position, "truncated data"⟩
  | position, a :: b :: rest =>
      let unit := order.number [a, b]
      if isSecondHalf unit then .error ⟨[a, b], position, "illegal encoding"⟩
      else if isFirstHalf unit then
        match rest with
        | c :: d :: rest =>
            let second := order.number [c, d]
            if isSecondHalf second then do
              return Char.ofNat (0x10000 + (unit - 0xd800) * 0x400 + (second - 0xdc00)) ::
                (← readUtf16 order (position + 4) rest)
            else .error ⟨[a, b], position, "illegal UTF-16 surrogate"⟩
        | rest => .error ⟨a :: b :: rest, position, "unexpected end of data"⟩
      else do return Char.ofNat unit :: (← readUtf16 order (position + 2) rest)

/-- Reads in units of four bytes, each of which is the number of a character. -/
def readUtf32 (order : ByteOrder) : Nat → List Nat → Except Misreading (List Char)
  | _, [] => .ok []
  | position, a :: b :: c :: d :: rest =>
      let number := order.number [a, b, c, d]
      if isFirstHalf number || isSecondHalf number then
        .error ⟨[a, b, c, d], position,
          "code point in surrogate code point range(0xd800, 0xe000)"⟩
      else if 0x110000 ≤ number then
        .error ⟨[a, b, c, d], position, "code point not in range(0x110000)"⟩
      else do return Char.ofNat number :: (← readUtf32 order (position + 4) rest)
  | position, bytes => .error ⟨bytes, position, "truncated data"⟩

/-- Reads in units of a given order. No text in UTF-8 starts with the mark of the byte order of
larger units, so that nothing but the empty text can be read without a given order. -/
def readUnits (width : String)
    (read : ByteOrder → Nat → List Nat → Except Misreading (List Char))
    (order : Option ByteOrder) (bytes : List Nat) : Except String (List Char) :=
  let used := order.getD .little
  match read used 0 bytes with
  | .error m => .error (m.message ("utf-" ++ width ++ "-" ++ used.suffix))
  | .ok chars =>
      if order.isNone && !bytes.isEmpty then
        .error ("UTF-" ++ width ++ " stream does not start with BOM")
      else .ok chars

/-- A mark of the byte order in front of a text is no part of it. -/
def dropMark : List Char → List Char
  | '\ufeff' :: cs => cs
  | cs => cs

/-- What a file that holds a text reads as in an encoding, or what is wrong with it. -/
def read (encoding : Encoding) (text : String) : Except String (List Char) :=
  let bytes := text.toUTF8.toList.map UInt8.toNat
  match encoding with
  | utf8 dropsMark => .ok (if dropsMark then dropMark text.toList else text.toList)
  | utf16 order => readUnits "16" readUtf16 order bytes
  | utf32 order => readUnits "32" readUtf32 order bytes
  | paged page =>
      (readBytes page.char? "character maps to <undefined>" 0 bytes).mapError
        (·.message "charmap")
  | lowerHalf name reason =>
      (readBytes (fun byte => if byte < 128 then some (Char.ofNat byte) else none) reason 0
        bytes).mapError (·.message name)
  | void => .error "undefined encoding"

end Encoding

end Accrual.Text
