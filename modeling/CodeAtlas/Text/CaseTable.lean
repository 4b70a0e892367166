import CodeAtlas.Text.Ranges

/-!
The case mappings of all scripts. A run says that every step-th code point between its ends moves
by the same distance; a code point whose image is several characters stands in a table of its own.
-/

namespace CodeAtlas.Text

structure CaseRun where
  first : Nat
  last : Nat
  step : Nat
  distance : Int

def CaseRun.covers (run : CaseRun) (value : Nat) : Bool :=
  run.first ≤ value && value ≤ run.last && (value - run.first) % run.step == 0

def CaseRun.inverse (run : CaseRun) : CaseRun :=
  ⟨(run.first + run.distance).toNat, (run.last + run.distance).toNat, run.step, -run.distance⟩

def caseRuns (step : Nat) (distance : Int) (ends : Ranges) : List CaseRun :=
  ends.map fun (first, last) => ⟨first, last, step, distance⟩

def letterRuns : List Char → List CaseRun
  | letter :: image :: rest =>
    ⟨letter.toNat, letter.toNat, 1, image.toNat - letter.toNat⟩ :: letterRuns rest
  | _ => []

def lowerRuns : List CaseRun :=
  caseRuns 1 32 (.ofLetters ["CnzDywcgBApqciDxBfDRAwzJQcBfBGJxBf"]) ++
  caseRuns 2 1 (.ofLetters ["JwBueedodBsdeBjeBpodqkBmequiPewEkBgkCadmdDqJKkFsmDqFCbevDuBTZaBsuBaFgmeCiqiqsmo"]) ++
  caseRuns 1 (-8) (.ofLetters ["LTohjflhjhjfBbhzhjhjh"]) ++
  [
    ⟨904, 906, 1, 37⟩, ⟨1021, 1023, 1, -130⟩, ⟨1024, 1039, 1, 80⟩, ⟨1329, 1366, 1, 48⟩,
    ⟨11264, 11311, 1, 48⟩, ⟨4256, 4293, 1, 7264⟩, ⟨5024, 5103, 1, 38864⟩, ⟨5104, 5109, 1, 8⟩,
    ⟨7312, 7354, 1, -3008⟩, ⟨7357, 7359, 1, -3008⟩, ⟨8025, 8031, 2, -8⟩, ⟨8122, 8123, 1, -74⟩,
    ⟨8136, 8139, 1, -86⟩, ⟨8154, 8155, 1, -100⟩, ⟨8170, 8171, 1, -112⟩, ⟨8184, 8185, 1, -128⟩,
    ⟨8186, 8187, 1, -126⟩, ⟨8486, 8486, 1, -7517⟩, ⟨8490, 8490, 1, -8383⟩, ⟨8491, 8491, 1, -8262⟩,
    ⟨8544, 8559, 1, 16⟩, ⟨9398, 9423, 1, 26⟩, ⟨66560, 66599, 1, 40⟩, ⟨66736, 66771, 1, 40⟩,
    ⟨66928, 66938, 1, 39⟩, ⟨66940, 66954, 1, 39⟩, ⟨66956, 66962, 1, 39⟩, ⟨68736, 68786, 1, 64⟩,
    ⟨125184, 125217, 1, 34⟩] ++
  letterRuns (
    "ŸÿƁɓƂƃƄƅƆɔƇƈƉɖƊɗƋƌƎǝƏəƐɛƑƒƓɠƔɣƖɩƗɨƘƙƜɯƝɲƟɵƦʀƧƨƩʃƬƭƮʈƯưƱʊƲʋƳƴƵƶƷʒƸƹƼƽǄǆǅǆǇǉǈǉǊǌǋǌǱǳǲǳǴǵǶƕ" ++
    "ǷƿȠƞȺⱥȻȼȽƚȾⱦɁɂɃƀɄʉɅʌͰͱͲͳͶͷͿϳΆάΌόΎύΏώϏϗϴθϷϸϹϲϺϻӀӏჇⴧჍⴭẞßᾸᾰᾹᾱᾼᾳῌῃῘῐῙῑῨῠῩῡῬῥῼῳℲⅎↃↄⱠⱡⱢɫⱣᵽⱤɽⱭɑ" ++
    "ⱮɱⱯɐⱰɒⱲⱳⱵⱶⱾȿⱿɀⳫⳬⳭⳮⳲⳳꝹꝺꝻꝼꝽᵹꞋꞌꞍɥꞐꞑꞒꞓꞪɦꞫɜꞬɡꞭɬꞮɪꞰʞꞱʇꞲʝꞳꭓꟄꞔꟅʂꟆᶎꟇꟈꟉꟊꟐꟑꟖꟗꟘꟙꟵꟶ𐖔𐖻𐖕𐖼").toList

def lowerExpansions : List (Nat × List Nat) := [(304, [105, 775])]

/-- Code points with a single uppercase image: some with one of their own, and then all lowercase
images. -/
def upperRuns : List CaseRun :=
  [⟨837, 837, 1, 84⟩, ⟨8126, 8126, 1, -7205⟩] ++
  letterRuns "µΜıIſSǅǄǈǇǋǊǲǱςΣϐΒϑΘϕΦϖΠϰΚϱΡϵΕᲀВᲁДᲂОᲃСᲄТᲅТᲆЪᲇѢᲈꙊẛṠ".toList ++
  lowerRuns.map CaseRun.inverse

/-- Code points whose uppercase and titlecase images are the same characters. -/
def commonExpansions : List (Nat × List Nat) :=
  imageTable 2 ["MraGlaKWceHaaDyaqaqaoacaqa"] ["CBwGaBWdCCadCwyDdgeeaBvFvCOuGoBnDqmaeaqDpiDqia"] ++
  imageTable 3 ["BJcaBgaKMcacacaEubealbea"] ["CSwCHsCHeya2wbaacaaFaxvFbaacaaFayaFbaacaaFa"]

/-- Eight letters each with an iota below, which stands behind the capital. -/
def iotaExpansions : List (Nat × List Nat) :=
  [(8064, 7944), (8072, 7944), (8080, 7976), (8088, 7976), (8096, 8040), (8104, 8040)].flatMap
    fun (letter, capital) =>
      (List.range 8).map fun index => (letter + index, [capital + index, 921])

def upperExpansions : List (Nat × List Nat) :=
  commonExpansions ++ iotaExpansions ++
  imageTable 2 ["IpaBTwaJXrciagciaBmciaDEYmcdbne"] [
    "GkGkDSeDUkUCgBHxVInavawaVJuaVJhaBbaBcaVNaaVLpaBzaCaaCOrCNlagagBaqaaDTiDTkaBhamuwtr"] ++
  imageTable 3 ["MAhaqaBwaDEYub"] ["CSgCMeCSwmaaBkaaCOrCGtCNfaag"]

/-- Code points with a single titlecase image: those for which it is not the uppercase image come
first. -/
def titleRuns : List CaseRun :=
  letterRuns "ǄǅǅǅǆǅǇǈǈǈǉǈǊǋǋǋǌǋǱǲǲǲǳǲ".toList ++ caseRuns 1 0 [(4304, 4346), (4349, 4351)] ++
  upperRuns

def titleExpansions : List (Nat × List Nat) :=
  commonExpansions ++
  imageTable 2 ["IpaBTwaJXracaoacaBuacaDEYucdbne"] [
    "GkIwDSeDVqUCgBSbVJjaVKqaVKjaVOcaVNpaCMrCEnagagBaqaaDTiDUqaBhamuwtr"] ++
  imageTable 3 ["MAhaqaBwaDEYub"] ["CSgCMeCMkmaaBkaaCOrCEhCEhaag"]

def casedRanges : Ranges :=
  Ranges.ofLetters [
    "CnzhzBwalafagwcBecHmcdfHzcBjibBfeDtaBrddbddcahacccactcDecFijGjcBlkBoEFgBlcagadBqdcZxDhdfDFvii",
    "BqdcCnHjCnKrdfdBldfdhcacacacBedCacgcaeccgeddffmgccgEnaoarmDyafadjcaeehacacacdcffaddgefasBfeb",
    "BFmBzCRvIuhdebnBlcagaBTWdBttBdFdDxedcCggbcaceBcbccBFqBqcmiDbBEAjgneBNuzhzBTuDbDtBjfBjEnkcocgcb",
    "ckcocgcbRkadccBpciBVaByoByELaClBGIrClBMLlDgcCscbdadbddclcacgcCmcddhcgcBbcdcecaegcNbdycycBecyc",
    "BecycBecycBecychCSzjctDTiCpDAbzhzhz"]

/-- The characters that are looked through when the neighbours of a sigma are examined. -/
def caseIgnorableRanges : Ranges :=
  Ranges.ofLetters [
    "BnahamaBkacaCuafacafadbTkHjfbfakbcaJsgIaagaByBscacbcbcaBtamflkcaBkaluraDyhcjcdBiacaBfBaDokChkf",
    "adazxBscBtaibhhBqCfCeacafhfaeglboaqaChafdjavbBbadbCgafbfbdceaBfbeambCgafecbfavbxfcaChadacdjaib",
    "mbBfaCkanaBzaeaCeaccgccdibmbBeaChadahagbvbBdbCgbfdjavbBeaCvaiccaDnadgmiDvadikacfCxbBcacacaCenc",
    "ecbgkcBjkaDzdcfcbdbBabfcrdoadbhaqaDraXlcBKlcBebBfbBfbCnbcgjadkeagaBueCaaCobBjaEpcfbkahcImbdaCh",
    "acgcacadhhjdaBoajBeBydBxacecagaBpinbBhddbccCfacbeaccChhdbCnfDfccmcgfahaebBzCkoaBjDwReaccmcococ",
    "obnejbladadeByecjcaoarmCaBgEJsbEkcEwaqaDtBfBwaScaBldeegaDqfDqcBQBvaBWdfKlaDvdcjcaBddDdbpBhDbay",
    "cEacebjaeafaBabgaFwbBbroaBnhBakBvcBxadddbsawbCpfdbdbnajaBkamaCaaccdbgbcaBcapbgbcaDxekcEsadafa",
    "BDZtaFsqWcpeanpBjadaGoaiahamaBkacaBwaBubCqawcTuaItaFueBNqfcBpciWlccbgdBpcfaGkbWcdOybFykBydEua",
    "CdoBqadblcByddbdafalaBzcBlechClanbCbilddaDscdacbhaGfaehwbCgbeaBmgeeHohdccayaDhfcafbcbJfdhbcbBc",
    "bDihdacbEdacadfcaDycddceKaicbJxbcafaFpddbfaBhjBpfddjakfdcBvmcbPrgcfcaDfvdgcbcbEtfeacbcgcaCvbea",
    "caNkbIBciUSueCigkdBNwaCmqCnbcbYGqdcgcbEUhbcdGYvBtdwUzckpdgBfdFtcCYeCcfBxjapaxecoCAjgcqdgcbceKc",
    "nOfaCkdCFxgEghEBgeBSXXqaBfDrEzJf"]

end CodeAtlas.Text
