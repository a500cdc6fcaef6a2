import DartBindings.Text.CodePage

/-!
Charsets by name. Case does not count in a name, and neither do the signs between its words.
-/

set_option autoImplicit false

namespace DartBindings.Text

/-- The charsets that are no pages with ASCII in them. -/
def otherCharsets : List Charset := [
  ⟨["cp037", "cp1026", "cp1140", "cp273", "cp424", "cp500", "cp864", "cp875", "mac_arabic",
    "mac_farsi"], ["csibm037", "csibm1026", "csibm273", "csibm424", "csibm500", "csibm864",
    "ebcdic_cp_be", "ebcdic_cp_ca", "ebcdic_cp_ch", "ebcdic_cp_he", "ebcdic_cp_nl",
    "ebcdic_cp_us", "ebcdic_cp_wt", "ibm037", "ibm039", "ibm1026", "ibm1140", "ibm273", "ibm424",
    "ibm500", "ibm864"],
    .foreign⟩,
  ⟨["big5", "big5hkscs", "cp932", "cp949", "cp950", "euc_jis_2004", "euc_jisx0213", "euc_jp",
    "euc_kr", "gb18030", "gb2312", "gbk", "iso2022_kr", "johab", "shift_jis", "shift_jis_2004",
    "shift_jisx0213", "utf_16", "utf_16_be", "utf_16_le", "utf_32", "utf_32_be", "utf_32_le",
    "utf_7"], ["big5_hkscs", "big5_tw", "chinese", "cp1361", "cp936", "csbig5", "csiso2022kr",
    "csiso58gb231280", "csshiftjis", "euc_cn", "euc_jis2004", "euccn", "eucgb2312_cn",
    "eucjis2004", "eucjisx0213", "eucjp", "euckr", "gb18030_2000", "gb2312_1980", "gb2312_80",
    "hkscs", "iso2022kr", "iso_2022_kr", "iso_ir_58", "jisx0213", "korean", "ks_c_5601",
    "ks_c_5601_1987", "ks_x_1001", "ksc5601", "ksx1001", "ms1361", "ms932", "ms936", "ms949",
    "ms950", "ms_kanji", "mskanji", "s_jis", "s_jis_2004", "s_jisx0213", "shiftjis",
    "shiftjis2004", "shiftjisx0213", "sjis", "sjis_2004", "sjisx0213", "u16", "u32", "u7",
    "u_jis", "uhc", "ujis", "unicode_1_1_utf_7", "unicodebigunmarked", "unicodelittleunmarked",
    "utf16", "utf32", "utf7", "utf_16be", "utf_16le", "utf_32be", "utf_32le", "x_mac_japanese",
    "x_mac_korean", "x_mac_simp_chinese", "x_mac_trad_chinese"],
    .severalBytes⟩,
  ⟨["base64_codec", "bz2_codec", "hex_codec", "quopri_codec", "rot_13", "uu_codec", "zlib_codec"],
    ["base64", "base_64", "bz2", "hex", "quopri", "quoted_printable", "quotedprintable", "rot13",
    "uu", "zip", "zlib"],
    .packed⟩,
  ⟨["idna"], [], .refusing "Unsupported error handling replace"⟩,
  ⟨["punycode"], [], .asciiOnly⟩,
  ⟨["undefined"], [], .refusing "undefined encoding"⟩]

/-- The words of a name in lower case, joined by underscores. `isStarted` says that a word has
been written, and `isApart` that signs have been passed over since. -/
def charsetKey (isStarted isApart : Bool) : List Char → List Char
  | [] => []
  | c :: rest =>
    if c.isAlphanum || c == '.' then
      let word := c.toLower :: charsetKey true false rest
      if isStarted && isApart then '_' :: word else word
    else charsetKey isStarted true rest

/-- A charset of that name. -/
def Charset.goesBy (key : String) (charset : Charset) : Bool :=
  let plain := String.ofList (key.toList.map fun c => if c == '.' then '_' else c)
  charset.names.contains key || charset.aliases.contains plain

/-- What bytes stand for in the charset of that name. -/
def byteReading? (name : String) : Option ByteReading :=
  let key := String.ofList (charsetKey false false name.toList)
  ((codePages ++ otherCharsets).find? (·.goesBy key)).map (·.reading)

end DartBindings.Text
