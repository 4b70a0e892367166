import CodeAtlas.Text.Ranges

/-!
Letters and digits of all scripts. A character is alphanumeric if it is a letter of any case or
none, or carries a decimal, digit or numeric value. A word character is alphanumeric or the
underscore.
-/

namespace CodeAtlas.Text

def alphanumericRanges : Ranges :=
  Ranges.ofLetters [
    "BwjizhzBwaibcaebcccwcBecRpflpeiacaFaecbddcahacccactcDecFijGjcBldahBoCuBafdBuBqwjfbcDucaqbiodar",
    "acBdBeDkmapBqkbfagvfakaeayyikgxcfsBpChCbeataijfjcpfhdbdvcgcaedearaobccfldfdajffbdvcgcbcbcbBgdc",
    "aijdcricccvcgcbceeataqbfjkamhdbdvcgcbceeaBfbccfjcgmacfeccdebcacbebecelxawmthcccwcpeaBbcdadbfjj",
    "gcafhcccwcjceeaBgbcbfjcbsicccBodaragccjfscfgrexcicadgBgjsBvcbngkjBobcacecxcacjcbkadecakjddBha",
    "BgtnhcBjBceEmBqvkhffdeaebicfmnacjhBlcagadBqcMucddgcacddBocddBgcddgcacddocCecddCopteprDhdfeXvdq",
    "czgCwekirosprpmccqBzBkafaejhjxjhDkiedBhcagCrlBeBoBndemBrfzhkBmwkCaBsjhjoaDqBushejBqBdoCdBbBjBd",
    "jeBwdiiBqdcBqdcfcbeagHjCnKrdfdBldfdhcacacacBedCacgcaeccgeddffmgccgEmbdfgkhmDyafadjcaeehacacacd",
    "ckddgefacCfBBzChDbvYhBdBRpIuhdebkadBlcagadCdiarwkgcgcgcgcgcgcgcgDdaSccBaiiedefDhhccDlcdgBqcDpe",
    "dlBfBxpBhjBfhcoBhjBooMjJTnCnBGUeCqBtdKieBbvBurBedDbBoidDydClgbcacezpcccdcwoflBzpBxBdjzfeacbcBl",
    "lwBaBciBuBdkhecycBoycchfjhweaeBxcaebdedacazcdkicnfdfdfkgcgcBqcnhEkojhQNrnwfBwMNdObdEbBngnegacj",
    "cmcecacbcbcEdBiNytCldCbBplEnecFeujizhzmDkefdfdfdcBklczcscbcodnBjEsnBsnCesbJlBceBwrBafBjkBdgBll",
    "BddBjfhceBrGbdjhBjfBjfBnjBznkcocgcbckcocgcbCqLykvlhzfcBpciCsfdacBrcbeadwdBedBljiBxscbgBgfzCtCd",
    "ftdBuqdcccBcliyBecBfBhhcBbherCblvdBagzygDdCuCeByoByiBpnjLjBecBphbDbBnjvmdBcrBvBbvwnCaBbBdcbdao",
    "BsBhyijkBjqjfadajBieanBvpdmkcaftmrcyDhgcacdcocjiBusjmhdbdvcgcbceeataneGdCatdgjgcBfBvvbcajjGlBu",
    "BqdBlBvvamjBnBqoaijCdBawlfgHeBrEnDenhdadhcbcxqacapjCthdBmracaBdalBniawamBtuatCuKeicBksaqBcgBd",
    "EjgcbcBlwakjhfcbcBfpaijLzsHiaquBsBJlDzEgsHnDXlDsqBPeFZuWkMUcVwiBecjhDacjhBdtBvrdnjcgcugsBAnDi",
    "EcCwgaCpmCnbcaBdJBzjBVpBriNFsdcgcbcLeBucsdjPfDKvEcgmeiijILjtEfyFgDgcCscbdadbddclcacgcCmcddhcgc",
    "BbcdcecaegcNbdycycBecycBecycBecycBecychdBxCQzBeSoBslgdjfaMkBdtBrfjBWhgcdcbcocHodiBxCpiafjBEmCg",
    "cccdCzBscoHndcBacbcadacjcdcacahafacacacccbcadacacacacacbcaddcgcdcdcacjcqgccecqWjmEDgjBNrCLFbBh",
    "GDsiIndINppLBkEPkUvCFzHHy"]

def decimalRanges : Ranges :=
  Ranges.ofLetters [
    "BwjCIpjFfjHrjPxjEpjEpjEpjEpjEpjEpjEpjEpjEpjDtjEpjCtjKtjCtjCTrjBnjLpjEzjGljhjHbjDjjFfjhjCAEpj",
    "BAdjBnjHrjxjDjjPrjBFMdjCCljDFzjBFhjEzjCjjFpjKtjNfjEpjOljDzjDzjQhjDzjBDfjJnjCtjBDBjjDjjFfjBPBx",
    "BxDNdjQhjCKljHBbj"]

def isAlphanumeric (char : Char) : Bool :=
  alphanumericRanges.contains char.toNat

def isWord (char : Char) : Bool :=
  char == '_' || isAlphanumeric char

def isDecimal (char : Char) : Bool :=
  decimalRanges.contains char.toNat

/-- The value of a decimal digit: the digits of a script are ten in a row, and a range of several
scripts holds a whole number of such rows. -/
def decimalValue (char : Char) : Nat :=
  match decimalRanges.find? fun range => range.1 ≤ char.toNat && char.toNat ≤ range.2 with
  | some range => (char.toNat - range.1) % 10
  | none => 0

end CodeAtlas.Text
