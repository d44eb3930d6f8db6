import ClearNames.Xml.CodePage

/-! The names of encodings. A name counts in letters of either case, with any
run of hyphens and underscores for one underscore. -/

set_option autoImplicit false

namespace ClearNames.Xml

inductive EncodingFault where
  | unknown (name : String)
  /-- Some characters take several bytes. -/
  | multibyte
  deriving DecidableEq, Repr

def EncodingFault.message : EncodingFault → String
  | .unknown name => "unknown encoding: " ++ name
  | .multibyte => "multi-byte encodings are not supported"

namespace EncodingName

/-- Names of ASCII, and of encodings whose other characters take several bytes
that are no characters one by one. -/
def asciiNames : List String := [
  "ansi_x3.4_1968", "ansi_x3.4_1986", "ansi_x3_4_1968", "ascii", "cp367", "cp65001", "csascii",
  "csiso2022jp", "hz", "hz_gb", "hz_gb_2312", "hzgb", "ibm367", "iso2022_jp", "iso2022_jp_1",
  "iso2022_jp_2", "iso2022_jp_2004", "iso2022_jp_3", "iso2022_jp_ext", "iso2022jp", "iso2022jp_1",
  "iso2022jp_2", "iso2022jp_2004", "iso2022jp_3", "iso2022jp_ext", "iso646_us", "iso_2022_jp",
  "iso_2022_jp_1", "iso_2022_jp_2", "iso_2022_jp_2004", "iso_2022_jp_3", "iso_2022_jp_ext",
  "iso_646.irv_1991", "iso_ir_6", "u8", "us", "us_ascii", "utf", "utf8", "utf8_ucs2", "utf8_ucs4",
  "utf_8", "utf_8_sig"]

def foreignNames : List String := [
  "cp037", "cp1026", "cp1140", "cp273", "cp424", "cp500", "cp864", "cp875", "csibm037", "csibm1026",
  "csibm273", "csibm424", "csibm500", "csibm864", "ebcdic_cp_be", "ebcdic_cp_ca", "ebcdic_cp_ch",
  "ebcdic_cp_he", "ebcdic_cp_nl", "ebcdic_cp_us", "ebcdic_cp_wt", "ibm037", "ibm039", "ibm1026", "ibm1140",
  "ibm273", "ibm424", "ibm500", "ibm864", "mac_arabic", "mac_farsi"]

def multibyteNames : List String := [
  "big5", "big5_hkscs", "big5_tw", "big5hkscs", "chinese", "cp1361", "cp932", "cp936", "cp949", "cp950",
  "csbig5", "csiso2022kr", "csiso58gb231280", "csshiftjis", "euc_cn", "euc_jis2004", "euc_jis_2004",
  "euc_jisx0213", "euc_jp", "euc_kr", "euccn", "eucgb2312_cn", "eucjis2004", "eucjisx0213", "eucjp",
  "euckr", "gb18030", "gb18030_2000", "gb2312", "gb2312_1980", "gb2312_80", "gbk", "hkscs", "iso2022_kr",
  "iso2022kr", "iso_2022_kr", "iso_ir_58", "jisx0213", "johab", "korean", "ks_c_5601", "ks_c_5601_1987",
  "ks_x_1001", "ksc5601", "ksx1001", "ms1361", "ms932", "ms936", "ms949", "ms950", "ms_kanji", "mskanji",
  "s_jis", "s_jis_2004", "s_jisx0213", "shift_jis", "shift_jis_2004", "shift_jisx0213", "shiftjis",
  "shiftjis2004", "shiftjisx0213", "sjis", "sjis_2004", "sjisx0213", "u16", "u32", "u7", "u_jis", "uhc",
  "ujis", "unicode_1_1_utf_7", "unicodebigunmarked", "unicodelittleunmarked", "utf16", "utf32", "utf7",
  "utf_16", "utf_16_be", "utf_16_le", "utf_16be", "utf_16le", "utf_32", "utf_32_be", "utf_32_le",
  "utf_32be", "utf_32le", "utf_7", "x_mac_japanese", "x_mac_korean", "x_mac_simp_chinese",
  "x_mac_trad_chinese"]

/-- A name in lower case with single underscores, none of them last. -/
def normal : List Char → List Char
  | [] => []
  | char :: rest =>
    let rest := normal rest
    if char = '-' ∨ char = '_' then if rest.isEmpty || rest.head? = some '_' then rest else '_' :: rest
    else char.toLower :: rest

/-- The table of a name that declares an encoding; `none` where it disagrees with ASCII. -/
def codePage (declared : String) : Except EncodingFault (Option CodePage) :=
  let name := String.ofList (normal declared.toList)
  if asciiNames.contains name then .ok (some .ascii)
  else if foreignNames.contains name then .ok none
  else if multibyteNames.contains name then .error .multibyte
  else
    match CodePage.named? name with
    | some page => .ok (some page)
    | none => .error (.unknown declared)

end EncodingName

end ClearNames.Xml
