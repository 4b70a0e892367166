/-!
The characters that have names in markup, with numbers in hexadecimal. An item such as
`41=alpha/first!,,gamma` gives the names of consecutive characters from its first one on: a slash
stands between names of one character, and an exclamation mark behind a name that may be written
without the semicolon. A sequence of characters joins their numbers by a plus.
-/

namespace CodeAtlas.Markup

def nameTable : List String := [
  "9=Tab,NewLine 21=excl,QUOT!/quot!,num,dollar,percnt,AMP!/amp!,apos,lpar,rpar,ast/midast,plus",
  "2c=comma,,period,sol 3a=colon,semi,LT!/lt!,equals,GT!/gt!,quest,commat 5b=lbrack/lsqb,bsol",
  "5d=rbrack/rsqb,Hat,UnderBar/lowbar,DiacriticalGrave/grave 7b=lbrace/lcub",
  "7c=VerticalLine/verbar/vert,rbrace/rcub a0=NonBreakingSpace/nbsp!,iexcl!,cent!,pound!,curren!",
  "a5=yen!,brvbar!,sect!,Dot/DoubleDot/die/uml!,COPY!/copy!,ordf!,laquo!,not!,shy!",
  "ae=REG!/circledR/reg!,macr!/strns,deg!,PlusMinus/plusmn!/pm,sup2!,sup3!,DiacriticalAcute/acute!",
  "b5=micro!,para!,CenterDot/centerdot/middot!,Cedilla/cedil!,sup1!,ordm!,raquo!,frac14!",
  "bd=frac12!/half,frac34!,iquest!,Agrave!,Aacute!,Acirc!,Atilde!,Auml!,Aring!/angst,AElig!",
  "c7=Ccedil!,Egrave!,Eacute!,Ecirc!,Euml!,Igrave!,Iacute!,Icirc!,Iuml!,ETH!,Ntilde!,Ograve!",
  "d3=Oacute!,Ocirc!,Otilde!,Ouml!,times!,Oslash!,Ugrave!,Uacute!,Ucirc!,Uuml!,Yacute!,THORN!",
  "df=szlig!,agrave!,aacute!,acirc!,atilde!,auml!,aring!,aelig!,ccedil!,egrave!,eacute!,ecirc!",
  "eb=euml!,igrave!,iacute!,icirc!,iuml!,eth!,ntilde!,ograve!,oacute!,ocirc!,otilde!,ouml!",
  "f7=div/divide!,oslash!,ugrave!,uacute!,ucirc!,uuml!,yacute!,thorn!,yuml!,Amacr,amacr,Abreve",
  "103=abreve,Aogon,aogon,Cacute,cacute,Ccirc,ccirc,Cdot,cdot,Ccaron,ccaron,Dcaron,dcaron,Dstrok",
  "111=dstrok,Emacr,emacr,,,Edot,edot,Eogon,eogon,Ecaron,ecaron,Gcirc,gcirc,Gbreve,gbreve,Gdot",
  "121=gdot,Gcedil,,Hcirc,hcirc,Hstrok,hstrok,Itilde,itilde,Imacr,imacr,,,Iogon,iogon,Idot",
  "131=imath/inodot,IJlig,ijlig,Jcirc,jcirc,Kcedil,kcedil,kgreen,Lacute,lacute,Lcedil,lcedil",
  "13d=Lcaron,lcaron,Lmidot,lmidot,Lstrok,lstrok,Nacute,nacute,Ncedil,ncedil,Ncaron,ncaron,napos",
  "14a=ENG,eng,Omacr,omacr,,,Odblac,odblac,OElig,oelig,Racute,racute,Rcedil,rcedil,Rcaron,rcaron",
  "15a=Sacute,sacute,Scirc,scirc,Scedil,scedil,Scaron,scaron,Tcedil,tcedil,Tcaron,tcaron,Tstrok",
  "167=tstrok,Utilde,utilde,Umacr,umacr,Ubreve,ubreve,Uring,uring,Udblac,udblac,Uogon,uogon,Wcirc",
  "175=wcirc,Ycirc,ycirc,Yuml,Zacute,zacute,Zdot,zdot,Zcaron,zcaron 192=fnof 1b5=imped 1f5=gacute",
  "237=jmath 2c6=circ,Hacek/caron 2d8=Breve/breve,DiacriticalDot/dot,ring,ogon",
  "2dc=DiacriticalTilde/tilde,DiacriticalDoubleAcute/dblac 311=DownBreve 391=Alpha,Beta,Gamma",
  "394=Delta,Epsilon,Zeta,Eta,Theta,Iota,Kappa,Lambda,Mu,Nu,Xi,Omicron,Pi,Rho,,Sigma,Tau,Upsilon",
  "3a6=Phi,Chi,Psi,Omega/ohm 3b1=alpha,beta,gamma,delta,epsi/epsilon,zeta,eta,theta,iota,kappa",
  "3bb=lambda,mu,nu,xi,omicron,pi,rho,sigmaf/sigmav/varsigma,sigma,tau,upsi/upsilon,phi,chi,psi",
  "3c9=omega 3d1=thetasym/thetav/vartheta,Upsi/upsih,,,phiv/straightphi/varphi,piv/varpi",
  "3dc=Gammad,digamma/gammad 3f0=kappav/varkappa,rhov/varrho,,,,epsiv/straightepsilon/varepsilon",
  "3f6=backepsilon/bepsi 401=IOcy,DJcy,GJcy,Jukcy,DScy,Iukcy,YIcy,Jsercy,LJcy,NJcy,TSHcy,KJcy",
  "40e=Ubrcy,DZcy,Acy,Bcy,Vcy,Gcy,Dcy,IEcy,ZHcy,Zcy,Icy,Jcy,Kcy,Lcy,Mcy,Ncy,Ocy,Pcy,Rcy,Scy,Tcy",
  "423=Ucy,Fcy,KHcy,TScy,CHcy,SHcy,SHCHcy,HARDcy,Ycy,SOFTcy,Ecy,YUcy,YAcy,acy,bcy,vcy,gcy,dcy,iecy",
  "436=zhcy,zcy,icy,jcy,kcy,lcy,mcy,ncy,ocy,pcy,rcy,scy,tcy,ucy,fcy,khcy,tscy,chcy,shcy,shchcy",
  "44a=hardcy,ycy,softcy,ecy,yucy,yacy,,iocy,djcy,gjcy,jukcy,dscy,iukcy,yicy,jsercy,ljcy,njcy",
  "45b=tshcy,kjcy,,ubrcy,dzcy 2002=ensp,emsp,emsp13,emsp14,,numsp,puncsp,ThinSpace/thinsp",
  "200a=VeryThinSpace/hairsp",
  "200b=NegativeMediumSpace/NegativeThickSpace/NegativeThinSpace/NegativeVeryThinSpace/ZeroWidthSpace",
  "200c=zwnj,zwj,lrm,rlm,dash/hyphen,,,ndash,mdash,horbar,Verbar/Vert,,OpenCurlyQuote/lsquo",
  "2019=CloseCurlyQuote/rsquo/rsquor,lsquor/sbquo,,OpenCurlyDoubleQuote/ldquo",
  "201d=CloseCurlyDoubleQuote/rdquo/rdquor,bdquo/ldquor,,dagger,Dagger/ddagger,bull/bullet,,,nldr",
  "2026=hellip/mldr 2030=permil,pertenk,prime,Prime,tprime,backprime/bprime,,,,lsaquo,rsaquo",
  "203e=OverBar/oline,,,caret,,hybull,frasl 204f=bsemi 2057=qprime 205f=MediumSpace,NoBreak",
  "2061=ApplyFunction/af,InvisibleTimes/it,InvisibleComma/ic 20ac=euro 20db=TripleDot/tdot,DotDot",
  "2102=Copf/complexes,,,incare,,,,,gscr,HilbertSpace/Hscr/hamilt,Hfr/Poincareplane",
  "210d=Hopf/quaternions,planckh,hbar/hslash/planck/plankv,Iscr/imagline,Ifr/Im/image/imagpart",
  "2112=Laplacetrf/Lscr/lagran,ell,,Nopf/naturals,numero,copysr,weierp/wp,Popf/primes",
  "211a=Qopf/rationals,Rscr/realine,Re/Rfr/real/realpart,Ropf/reals,rx,,,,TRADE/trade",
  "2124=Zopf/integers,,,mho,Zfr/zeetrf,iiota,,,Bernoullis/Bscr/bernou,Cayleys/Cfr,,escr",
  "2130=Escr/expectation,Fouriertrf/Fscr,,Mellintrf/Mscr/phmmat,order/orderof/oscr,alefsym/aleph",
  "2136=beth,gimel,daleth 2145=CapitalDifferentialD/DD,DifferentialD/dd",
  "2147=ExponentialE/ee/exponentiale,ImaginaryI/ii 2153=frac13,frac23,frac15,frac25,frac35,frac45",
  "2159=frac16,frac56,frac18,frac38,frac58,frac78",
  "2190=LeftArrow/ShortLeftArrow/larr/leftarrow/slarr,ShortUpArrow/UpArrow/uarr/uparrow",
  "2192=RightArrow/ShortRightArrow/rarr/rightarrow/srarr,DownArrow/ShortDownArrow/darr/downarrow",
  "2194=LeftRightArrow/harr/leftrightarrow,UpDownArrow/updownarrow/varr",
  "2196=UpperLeftArrow/nwarr/nwarrow,UpperRightArrow/nearr/nearrow,LowerRightArrow/searr/searrow",
  "2199=LowerLeftArrow/swarr/swarrow,nlarr/nleftarrow,nrarr/nrightarrow,,rarrw/rightsquigarrow",
  "219e=Larr/twoheadleftarrow,Uarr,Rarr/twoheadrightarrow,Darr,larrtl/leftarrowtail",
  "21a3=rarrtl/rightarrowtail,LeftTeeArrow/mapstoleft,UpTeeArrow/mapstoup,RightTeeArrow/map/mapsto",
  "21a7=DownTeeArrow/mapstodown,,hookleftarrow/larrhk,hookrightarrow/rarrhk,larrlp/looparrowleft",
  "21ac=looparrowright/rarrlp,harrw/leftrightsquigarrow,nharr/nleftrightarrow,,Lsh/lsh,Rsh/rsh",
  "21b2=ldsh,rdsh,,crarr,cularr/curvearrowleft,curarr/curvearrowright,,,circlearrowleft/olarr",
  "21bb=circlearrowright/orarr,LeftVector/leftharpoonup/lharu,DownLeftVector/leftharpoondown/lhard",
  "21be=RightUpVector/uharr/upharpoonright,LeftUpVector/uharl/upharpoonleft",
  "21c0=RightVector/rharu/rightharpoonup,DownRightVector/rhard/rightharpoondown",
  "21c2=RightDownVector/dharr/downharpoonright,LeftDownVector/dharl/downharpoonleft",
  "21c4=RightArrowLeftArrow/rightleftarrows/rlarr,UpArrowDownArrow/udarr",
  "21c6=LeftArrowRightArrow/leftrightarrows/lrarr,leftleftarrows/llarr,upuparrows/uuarr",
  "21c9=rightrightarrows/rrarr,ddarr/downdownarrows,ReverseEquilibrium/leftrightharpoons/lrhar",
  "21cc=Equilibrium/rightleftharpoons/rlhar,nLeftarrow/nlArr,nLeftrightarrow/nhArr",
  "21cf=nRightarrow/nrArr,DoubleLeftArrow/Leftarrow/lArr,DoubleUpArrow/Uparrow/uArr",
  "21d2=DoubleRightArrow/Implies/Rightarrow/rArr,DoubleDownArrow/Downarrow/dArr",
  "21d4=DoubleLeftRightArrow/Leftrightarrow/hArr/iff,DoubleUpDownArrow/Updownarrow/vArr,nwArr",
  "21d7=neArr,seArr,swArr,Lleftarrow/lAarr,Rrightarrow/rAarr,,zigrarr 21e4=LeftArrowBar/larrb",
  "21e5=RightArrowBar/rarrb 21f5=DownArrowUpArrow/duarr 21fd=loarr,roarr,hoarr,ForAll/forall",
  "2201=comp/complement,PartialD/part,Exists/exist,NotExists/nexist/nexists",
  "2205=empty/emptyset/emptyv/varnothing,,Del/nabla,Element/in/isin/isinv,NotElement/notin/notinva",
  "220b=ReverseElement/SuchThat/ni/niv,NotReverseElement/notni/notniva,,,Product/prod",
  "2210=Coproduct/coprod,Sum/sum,minus,MinusPlus/mnplus/mp,dotplus/plusdo",
  "2216=Backslash/setminus/setmn/smallsetminus/ssetmn,lowast,SmallCircle/compfn,,Sqrt/radic",
  "221d=Proportional/prop/propto/varpropto/vprop,infin,angrt,ang/angle,angmsd/measuredangle,angsph",
  "2223=VerticalBar/mid/shortmid/smid,NotVerticalBar/nmid/nshortmid/nsmid",
  "2225=DoubleVerticalBar/par/parallel/shortparallel/spar",
  "2226=NotDoubleVerticalBar/npar/nparallel/nshortparallel/nspar,and/wedge,or/vee,cap,cup",
  "222b=Integral/int,Int,iiint/tint,ContourIntegral/conint/oint,Conint/DoubleContourIntegral",
  "2230=Cconint,cwint,ClockwiseContourIntegral/cwconint,CounterClockwiseContourIntegral/awconint",
  "2234=Therefore/there4/therefore,Because/becaus/because,ratio,Colon/Proportion,dotminus/minusd",
  "223a=mDDot,homtht,Tilde/sim/thicksim/thksim,backsim/bsim,ac/mstpos,acd,VerticalTilde/wr/wreath",
  "2241=NotTilde/nsim,EqualTilde/eqsim/esim,TildeEqual/sime/simeq,NotTildeEqual/nsime/nsimeq",
  "2245=TildeFullEqual/cong,simne,NotTildeFullEqual/ncong",
  "2248=TildeTilde/ap/approx/asymp/thickapprox/thkap,NotTildeTilde/nap/napprox,ape/approxeq,apid",
  "224c=backcong/bcong,CupCap/asympeq,Bumpeq/HumpDownHump/bump,HumpEqual/bumpe/bumpeq",
  "2250=DotEqual/doteq/esdot,doteqdot/eDot,efDot/fallingdotseq,erDot/risingdotseq",
  "2254=Assign/colone/coloneq,ecolon/eqcolon,ecir/eqcirc,circeq/cire,,wedgeq,veeeq,,triangleq/trie",
  "225f=equest/questeq,NotEqual/ne,Congruent/equiv,NotCongruent/nequiv,,le/leq,GreaterEqual/ge/geq",
  "2266=LessFullEqual/lE/leqq,GreaterFullEqual/gE/geqq,lnE/lneqq,gnE/gneqq,Lt/NestedLessLess/ll",
  "226b=Gt/NestedGreaterGreater/gg,between/twixt,NotCupCap,NotLess/nless/nlt,NotGreater/ngt/ngtr",
  "2270=NotLessEqual/nle/nleq,NotGreaterEqual/nge/ngeq,LessTilde/lesssim/lsim",
  "2273=GreaterTilde/gsim/gtrsim,NotLessTilde/nlsim,NotGreaterTilde/ngsim,LessGreater/lessgtr/lg",
  "2277=GreaterLess/gl/gtrless,NotLessGreater/ntlg,NotGreaterLess/ntgl,Precedes/pr/prec",
  "227b=Succeeds/sc/succ,PrecedesSlantEqual/prcue/preccurlyeq,SucceedsSlantEqual/sccue/succcurlyeq",
  "227e=PrecedesTilde/precsim/prsim,SucceedsTilde/scsim/succsim,NotPrecedes/npr/nprec",
  "2281=NotSucceeds/nsc/nsucc,sub/subset,Superset/sup/supset,nsub,nsup,SubsetEqual/sube/subseteq",
  "2287=SupersetEqual/supe/supseteq,NotSubsetEqual/nsube/nsubseteq",
  "2289=NotSupersetEqual/nsupe/nsupseteq,subne/subsetneq,supne/supsetneq,,cupdot,UnionPlus/uplus",
  "228f=SquareSubset/sqsub/sqsubset,SquareSuperset/sqsup/sqsupset",
  "2291=SquareSubsetEqual/sqsube/sqsubseteq,SquareSupersetEqual/sqsupe/sqsupseteq",
  "2293=SquareIntersection/sqcap,SquareUnion/sqcup,CirclePlus/oplus,CircleMinus/ominus",
  "2297=CircleTimes/otimes,osol,CircleDot/odot,circledcirc/ocir,circledast/oast,,circleddash/odash",
  "229e=boxplus/plusb,boxminus/minusb,boxtimes/timesb,dotsquare/sdotb,RightTee/vdash,LeftTee/dashv",
  "22a4=DownTee/top,UpTee/bot/bottom/perp,,models,DoubleRightTee/vDash,Vdash,Vvdash,VDash,nvdash",
  "22ad=nvDash,nVdash,nVDash,prurel,,LeftTriangle/vartriangleleft/vltri",
  "22b3=RightTriangle/vartriangleright/vrtri,LeftTriangleEqual/ltrie/trianglelefteq",
  "22b5=RightTriangleEqual/rtrie/trianglerighteq,origof,imof,multimap/mumap,hercon,intcal/intercal",
  "22bb=veebar,,barvee,angrtvb,lrtri,Wedge/bigwedge/xwedge,Vee/bigvee/xvee",
  "22c2=Intersection/bigcap/xcap,Union/bigcup/xcup,Diamond/diam/diamond,sdot,Star/sstarf",
  "22c7=divideontimes/divonx,bowtie,ltimes,rtimes,leftthreetimes/lthree,rightthreetimes/rthree",
  "22cd=backsimeq/bsime,curlyvee/cuvee,curlywedge/cuwed,Sub/Subset,Sup/Supset,Cap,Cup",
  "22d4=fork/pitchfork,epar,lessdot/ltdot,gtdot/gtrdot,Ll,Gg/ggg,LessEqualGreater/leg/lesseqgtr",
  "22db=GreaterEqualLess/gel/gtreqless,,,cuepr/curlyeqprec,cuesc/curlyeqsucc",
  "22e0=NotPrecedesSlantEqual/nprcue,NotSucceedsSlantEqual/nsccue,NotSquareSubsetEqual/nsqsube",
  "22e3=NotSquareSupersetEqual/nsqsupe,,,lnsim,gnsim,precnsim/prnsim,scnsim/succnsim",
  "22ea=NotLeftTriangle/nltri/ntriangleleft,NotRightTriangle/nrtri/ntriangleright",
  "22ec=NotLeftTriangleEqual/nltrie/ntrianglelefteq,NotRightTriangleEqual/nrtrie/ntrianglerighteq",
  "22ee=vellip,ctdot,utdot,dtdot,disin,isinsv,isins,isindot,notinvc,notinvb,,isinE,nisd,xnis,nis",
  "22fd=notnivc,notnivb 2305=barwed/barwedge,Barwed/doublebarwedge,,LeftCeiling/lceil",
  "2309=RightCeiling/rceil,LeftFloor/lfloor,RightFloor/rfloor,drcrop,dlcrop,urcrop,ulcrop,bnot",
  "2312=profline,profsurf,,telrec,target,,,,,,ulcorn/ulcorner,urcorn/urcorner,dlcorn/llcorner",
  "231f=drcorn/lrcorner,,,frown/sfrown,smile/ssmile 232d=cylcty,profalar 2336=topbot 233d=ovbar",
  "233f=solbar 237c=angzarr 23b0=lmoust/lmoustache,rmoust/rmoustache,,,OverBracket/tbrk",
  "23b5=UnderBracket/bbrk,bbrktbrk 23dc=OverParenthesis,UnderParenthesis,OverBrace,UnderBrace",
  "23e2=trpezium,,,,,elinters 2423=blank 24c8=circledS/oS 2500=HorizontalLine/boxh,,boxv",
  "250c=boxdr,,,,boxdl,,,,boxur,,,,boxul,,,,boxvr 2524=boxvl 252c=boxhd 2534=boxhu 253c=boxvh",
  "2550=boxH,boxV,boxdR,boxDr,boxDR,boxdL,boxDl,boxDL,boxuR,boxUr,boxUR,boxuL,boxUl,boxUL,boxvR",
  "255f=boxVr,boxVR,boxvL,boxVl,boxVL,boxHd,boxhD,boxHD,boxHu,boxhU,boxHU,boxvH,boxVh,boxVH",
  "2580=uhblk,,,,lhblk,,,,block 2591=blk14,blk12,blk34 25a1=Square/squ/square",
  "25aa=FilledVerySmallSquare/blacksquare/squarf/squf,EmptyVerySmallSquare,,rect,marker,,,fltns",
  "25b3=bigtriangleup/xutri,blacktriangle/utrif,triangle/utri,,,blacktriangleright/rtrif",
  "25b9=rtri/triangleright,,,,bigtriangledown/xdtri,blacktriangledown/dtrif,dtri/triangledown",
  "25c2=blacktriangleleft/ltrif,ltri/triangleleft 25ca=loz/lozenge,cir 25ec=tridot,,,bigcirc/xcirc",
  "25f8=ultri,urtri,lltri,EmptySmallSquare,FilledSmallSquare 2605=bigstar/starf,star 260e=phone",
  "2640=female,,male 2660=spades/spadesuit,,,clubs/clubsuit,,hearts/heartsuit,diamondsuit/diams",
  "266a=sung,,,flat,natur/natural,sharp 2713=check/checkmark,,,,cross 2720=malt/maltese 2736=sext",
  "2758=VerticalSeparator 2772=lbbrk,rbbrk 27c8=bsolhsub,suphsol 27e6=LeftDoubleBracket/lobrk",
  "27e7=RightDoubleBracket/robrk,LeftAngleBracket/lang/langle,RightAngleBracket/rang/rangle,Lang",
  "27eb=Rang,loang,roang 27f5=LongLeftArrow/longleftarrow/xlarr",
  "27f6=LongRightArrow/longrightarrow/xrarr,LongLeftRightArrow/longleftrightarrow/xharr",
  "27f8=DoubleLongLeftArrow/Longleftarrow/xlArr,DoubleLongRightArrow/Longrightarrow/xrArr",
  "27fa=DoubleLongLeftRightArrow/Longleftrightarrow/xhArr,,longmapsto/xmap,,,dzigrarr 2902=nvlArr",
  "2903=nvrArr,nvHarr,Map 290c=lbarr,bkarow/rbarr,lBarr,dbkarow/rBarr,RBarr/drbkarow,DDotrahd",
  "2912=UpArrowBar,DownArrowBar,,,Rarrtl,,,latail,ratail,lAtail,rAtail,larrfs,rarrfs,larrbfs",
  "2920=rarrbfs,,,nwarhk,nearhk,hksearow/searhk,hkswarow/swarhk,nwnear,nesear/toea,seswar/tosa",
  "292a=swnwar 2933=rarrc,,cudarrr,ldca,rdca,cudarrl,larrpl,,,curarrm,cularrp 2945=rarrpl",
  "2948=harrcir,Uarrocir,lurdshar,ldrushar,,,LeftRightVector,RightUpDownVector,DownLeftRightVector",
  "2951=LeftUpDownVector,LeftVectorBar,RightVectorBar,RightUpVectorBar,RightDownVectorBar",
  "2956=DownLeftVectorBar,DownRightVectorBar,LeftUpVectorBar,LeftDownVectorBar,LeftTeeVector",
  "295b=RightTeeVector,RightUpTeeVector,RightDownTeeVector,DownLeftTeeVector,DownRightTeeVector",
  "2960=LeftUpTeeVector,LeftDownTeeVector,lHar,uHar,rHar,dHar,luruhar,ldrdhar,ruluhar,rdldhar",
  "296a=lharul,llhard,rharul,lrhard,UpEquilibrium/udhar,ReverseUpEquilibrium/duhar,RoundImplies",
  "2971=erarr,simrarr,larrsim,rarrsim,rarrap,ltlarr,,gtrarr,subrarr,,suplarr,lfisht,rfisht,ufisht",
  "297f=dfisht,,,,,,lopar,ropar,,,,,lbrke,rbrke,lbrkslu,rbrksld,lbrksld,rbrkslu,langd,rangd,lparlt",
  "2994=rpargt,gtlPar,ltrPar,,,,vzigzag,,vangrt,angrtvbd 29a4=ange,range,dwangle,uwangle,angmsdaa",
  "29a9=angmsdab,angmsdac,angmsdad,angmsdae,angmsdaf,angmsdag,angmsdah,bemptyv,demptyv,cemptyv",
  "29b3=raemptyv,laemptyv,ohbar,omid,opar,,operp,,olcross,odsold,,olcir,ofcir,olt,ogt,cirscir,cirE",
  "29c4=solb,bsolb,,,,boxbox,,,,trisb,rtriltri,LeftTriangleBar,RightTriangleBar 29dc=iinfin",
  "29dd=infintie,nvinfin,,,,,eparsl,smeparsl,eqvparsl,,,,,,blacklozenge/lozf 29f4=RuleDelayed",
  "29f6=dsol 2a00=bigodot/xodot,bigoplus/xoplus,bigotimes/xotime,,biguplus/xuplus,,bigsqcup/xsqcup",
  "2a0c=iiiint/qint,fpartint,,,cirfnint,awint,rppolint,scpolint,npolint,pointint,quatint,intlarhk",
  "2a22=pluscir,plusacir,simplus,plusdu,plussim,plustwo,,mcomma,minusdu,,,loplus,roplus,Cross",
  "2a30=timesd,timesbar,,smashp,lotimes,rotimes,otimesas,Otimes,odiv,triplus,triminus,tritime",
  "2a3c=intprod/iprod,,,amalg,capdot,,ncup,ncap,capand,cupor,cupcap,capcup,cupbrcap,capbrcup",
  "2a4a=cupcup,capcap,ccups,ccaps,,,ccupssm,,,And,Or,andand,oror,orslope,andslope,,andv,orv,andd",
  "2a5d=ord,,wedbar 2a66=sdote,,,,simdot,,,congdot,easter,apacir,apE,eplus,pluse,Esim,Colone,Equal",
  "2a77=ddotseq/eDDot,equivDD,ltcir,gtcir,ltquest,gtquest,LessSlantEqual/leqslant/les",
  "2a7e=GreaterSlantEqual/geqslant/ges,lesdot,gesdot,lesdoto,gesdoto,lesdotor,gesdotol",
  "2a85=lap/lessapprox,gap/gtrapprox,lne/lneq,gne/gneq,lnap/lnapprox,gnap/gnapprox,lEg/lesseqqgtr",
  "2a8c=gEl/gtreqqless,lsime,gsime,lsimg,gsiml,lgE,glE,lesges,gesles,els/eqslantless",
  "2a96=egs/eqslantgtr,elsdot,egsdot,el,eg,,,siml,simg,simlE,simgE,LessLess,GreaterGreater,,glj",
  "2aa5=gla,ltcc,gtcc,lescc,gescc,smt,lat,smte,late,bumpE,PrecedesEqual/pre/preceq",
  "2ab0=SucceedsEqual/sce/succeq,,,prE,scE,precneqq/prnE,scnE/succneqq,prap/precapprox",
  "2ab8=scap/succapprox,precnapprox/prnap,scnap/succnapprox,Pr,Sc,subdot,supdot,subplus,supplus",
  "2ac1=submult,supmult,subedot,supedot,subE/subseteqq,supE/supseteqq,subsim,supsim",
  "2acb=subnE/subsetneqq,supnE/supsetneqq,,,csub,csup,csube,csupe,subsup,supsub,subsub,supsup",
  "2ad7=suphsub,supdsub,forkv,topfork,mlcp 2ae4=Dashv/DoubleLeftTee,,Vdashl,Barv,vBar,vBarv,,Vbar",
  "2aec=Not,bNot,rnmid,cirmid,midcir,topcir,nhpar,parsim 2afd=parsl fb00=fflig,filig,fllig,ffilig",
  "fb04=ffllig 1d49c=Ascr,,Cscr,Dscr,,,Gscr,,,Jscr,Kscr,,,Nscr,Oscr,Pscr,Qscr,,Sscr,Tscr,Uscr,Vscr",
  "1d4b2=Wscr,Xscr,Yscr,Zscr,ascr,bscr,cscr,dscr,,fscr,,hscr,iscr,jscr,kscr,lscr,mscr,nscr,,pscr",
  "1d4c6=qscr,rscr,sscr,tscr,uscr,vscr,wscr,xscr,yscr,zscr 1d504=Afr,Bfr,,Dfr,Efr,Ffr,Gfr,,,Jfr",
  "1d50e=Kfr,Lfr,Mfr,Nfr,Ofr,Pfr,Qfr,,Sfr,Tfr,Ufr,Vfr,Wfr,Xfr,Yfr,,afr,bfr,cfr,dfr,efr,ffr,gfr,hfr",
  "1d526=ifr,jfr,kfr,lfr,mfr,nfr,ofr,pfr,qfr,rfr,sfr,tfr,ufr,vfr,wfr,xfr,yfr,zfr,Aopf,Bopf,,Dopf",
  "1d53c=Eopf,Fopf,Gopf,,Iopf,Jopf,Kopf,Lopf,Mopf,,Oopf,,,,Sopf,Topf,Uopf,Vopf,Wopf,Xopf,Yopf",
  "1d552=aopf,bopf,copf,dopf,eopf,fopf,gopf,hopf,iopf,jopf,kopf,lopf,mopf,nopf,oopf,popf,qopf,ropf",
  "1d564=sopf,topf,uopf,vopf,wopf,xopf,yopf,zopf 3c+20d2=nvlt 3d+20e5=bne 3e+20d2=nvgt 66+6a=fjlig",
  "205f+200a=ThickSpace 219d+338=nrarrw 2202+338=npart 2220+20d2=nang 2229+fe00=caps",
  "222a+fe00=cups 223c+20d2=nvsim 223d+331=race 223e+333=acE 2242+338=NotEqualTilde/nesim",
  "224b+338=napid 224d+20d2=nvap 224e+338=NotHumpDownHump/nbump 224f+338=NotHumpEqual/nbumpe",
  "2250+338=nedot 2261+20e5=bnequiv 2264+20d2=nvle 2265+20d2=nvge 2266+338=nlE/nleqq",
  "2267+338=NotGreaterFullEqual/ngE/ngeqq 2268+fe00=lvertneqq/lvnE 2269+fe00=gvertneqq/gvnE",
  "226a+338=NotLessLess/nLtv 226a+20d2=nLt 226b+338=NotGreaterGreater/nGtv 226b+20d2=nGt",
  "227f+338=NotSucceedsTilde 2282+20d2=NotSubset/nsubset/vnsub 2283+20d2=NotSuperset/nsupset/vnsup",
  "228a+fe00=varsubsetneq/vsubne 228b+fe00=varsupsetneq/vsupne 228f+338=NotSquareSubset",
  "2290+338=NotSquareSuperset 2293+fe00=sqcaps 2294+fe00=sqcups 22b4+20d2=nvltrie",
  "22b5+20d2=nvrtrie 22d8+338=nLl 22d9+338=nGg 22da+fe00=lesg 22db+fe00=gesl 22f5+338=notindot",
  "22f9+338=notinE 2933+338=nrarrc 29cf+338=NotLeftTriangleBar 29d0+338=NotRightTriangleBar",
  "2a6d+338=ncongdot 2a70+338=napE 2a7d+338=NotLessSlantEqual/nleqslant/nles",
  "2a7e+338=NotGreaterSlantEqual/ngeqslant/nges 2aa1+338=NotNestedLessLess",
  "2aa2+338=NotNestedGreaterGreater 2aac+fe00=smtes 2aad+fe00=lates",
  "2aaf+338=NotPrecedesEqual/npre/npreceq 2ab0+338=NotSucceedsEqual/nsce/nsucceq",
  "2ac5+338=nsubE/nsubseteqq 2ac6+338=nsupE/nsupseteqq 2acb+fe00=varsubsetneqq/vsubnE",
  "2acc+fe00=varsupsetneqq/vsupnE 2afd+20e5=nparsl"]

end CodeAtlas.Markup
