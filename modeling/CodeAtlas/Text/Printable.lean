import CodeAtlas.Text.Ranges

/-!
Printable characters. A character of the categories control, format, private use, unassigned or
separator is not printable, the plain space apart.
-/

namespace CodeAtlas.Text

def unprintableRanges : Ranges :=
  Ranges.ofLetters [
    "aBfDsBhnaBBnbhdiacavaPiaBnbBzbeaCehBcdhqxaHlaBxbCibDynCibBybqaBdbcameBgiCxaGgajbdbxaiaccfbkbdb",
    "fhcddagbBabeahddbxaiadadadbcagddbeccgfacgsjeakaeaxaiadagblaeaebcofbngiaeajbdbxaiadagbkbdbegedd",
    "agbtjdahceafcdacadcdcecndgceafbcfcnweoaeayarbkaeafgdaebcbfblgxaeayalagbkaeafgdfdafbladmoaeaCaa",
    "eahdrbBbaeatczakacbiccdhacajflbelChdBeBkdacagazacaybgacahblbfBfCvaBldBoaBlaqaoBkHracecbOoafbia",
    "cafbBqafbBiafbiacafbqaCgafbCqbBhcBbfDjbhbYraBdcDmgxizivloaeadlDrblflfpamfDmgBseCtjBgandndccBrb",
    "gkBtdBbfmcClbCoaBebmflfpbBgBwDacBwaEnhCjcqcCjgBsbmhBseUpbhbBnbhbjacacacaBgbCcaqapbhaubeakqzhBw",
    "qdbBcaocBioBioFldZoymuCRtbBhaNmeBuacecbCfgdnziiaiaiaiaiaiaiaiaExBhBbaDmlIhzneCmaDjbEaeBsaDraDh",
    "lBwaBRIscCeiNltHdhHwedacagxCiclfCfhCthnfEnkBfcDbamdBiaCeipblbEaxBdjhbhbhiiaiaCjdExblfQNtlydBy",
    "MNbOdbEdBlilgeBbagacadadaEwpRebCdgcBfBrfCaauafdgaFgdHjchbhbhbeciaimdbnaBbauadaqbpBhEueedBucDla",
    "occBuBvEzBecByoBddBliBfeBseBfaBmdpBpGdblfBldBldBphCbknaqaiadamaqaiadCoMaixjjxhaBrakCqhbcaBtadc",
    "cbyaCvhkBvuadeBicBcecClCfdvbBzadejaeaBebedlgkgCnBfBodniCdcBebBceBbgfliDbCwCcCamCagBvhlLhBgaBra",
    "ebdCzBphBrvBbBlBdtyiDbdBliClagmBaglfCcathBoiDtavktaBtCmiacafaqamfCielffajbdbxaiadagalbdbebcfce",
    "ibicgFiDpagBdCvhlGjCdbBnBhCsklfosChflCbBcbqdyHcCjDvDgljbcbjadaBfadbnilCrjbBvbmBaCvhDgmCwKckaBu",
    "apjBecBhbxapCuiadaBtccadakhlfhadaBmadahglLxBaHacoBzmBJoDxEiagkHpDXjDwmBPgFZsWmMUaVygBgaldDealf",
    "BfbhjCtjlaiaweuBAlDoDwCydCggsClgkdnJCbhBVrBpkNFqfaiadaLgBseqfhPhDKtEeeockglbfGYxBvbyiEnChJnjBo",
    "bCxhEjuCtFxvlDkiBaFeDiaCuadbcbdbfanacaiaCoafbjaiaBdafagacciaNdbLhbBBbogaqBQlBgIqiasbiadagIeBuc",
    "pblddMhBgqChecBVziafadaqaHqbrBoCzdlddBEeCrCxCkHlfaBcadacbcalafacacfcdcacacaeadacbcacacacacadac",
    "bfaiafafacalaseeagasBzdKjBtdDxlqbqaqaBmjGtCdBemBtdkgdnhFxBLxercocEnlDmgndcondCfhlfBphBfbdCzNdl",
    "pbgcgciiBecmehjlfjhiiFsaCeBklBNpCLFdBfGDugIpbINrnLBmEPiUxCFxHIaBOTMqJhLECt"]

def isPrintable (char : Char) : Bool :=
  !unprintableRanges.contains char.toNat

end CodeAtlas.Text
