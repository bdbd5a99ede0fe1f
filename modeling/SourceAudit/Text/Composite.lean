namespace SourceAudit.Text

/-- Letters that are made of two others: the second of these, then the letters, each followed by the
    first one. -/
def composites : List String :=
  ["\u0300ÀAÈEÌIÒOÙUàaèeìiòoùuǛÜǜüǸNǹnЀЕЍИѐеѝиḔĒḕēṐŌṑōẀWẁwẦÂầâẰĂằăỀÊềêỒÔồôỜƠờơỪƯừưỲYỳyἂἀἃἁἊἈἋἉ",
   "\u0300ἒἐἓἑἚἘἛἙἢἠἣἡἪἨἫἩἲἰἳἱἺἸἻἹὂὀὃὁὊὈὋὉὒὐὓὑὛὙὢὠὣὡὪὨὫὩὰαὲεὴηὶιὸοὺυὼωᾺΑῈΕῊΗ῍᾿ῒϊῚΙ῝῾ῢϋῪΥ῭¨ῸΟῺΩ",
   "\u0301ÁAÉEÍIÓOÚUÝYáaéeíióoúuýyĆCćcĹLĺlŃNńnŔRŕrŚSśsŹZźzǗÜǘüǴGǵgǺÅǻåǼÆǽæǾØǿø΅¨ΆΑΈΕΉΗΊΙΌΟΎΥΏΩ",
   "\u0301ΐϊάαέεήηίιΰϋόούυώωϓϒЃГЌКѓгќкḈÇḉçḖĒḗēḮÏḯïḰKḱkḾMḿmṌÕṍõṒŌṓōṔPṕpṸŨṹũẂWẃwẤÂấâẮĂắăẾÊếêỐÔốô",
   "\u0301ỚƠớơỨƯứưἄἀἅἁἌἈἍἉἔἐἕἑἜἘἝἙἤἠἥἡἬἨἭἩἴἰἵἱἼἸἽἹὄὀὅὁὌὈὍὉὔὐὕὑὝὙὤὠὥὡὬὨὭὩ῎᾿῞῾",
   "\u0302ÂAÊEÎIÔOÛUâaêeîiôoûuĈCĉcĜGĝgĤHĥhĴJĵjŜSŝsŴWŵwŶYŷyẐZẑzẬẠậạỆẸệẹỘỌộọ",
   "\u0303ÃAÑNÕOãañnõoĨIĩiŨUũuṼVṽvẪÂẫâẴĂẵăẼEẽeỄÊễêỖÔỗôỠƠỡơỮƯữưỸYỹy",
   "\u0304ĀAāaĒEēeĪIīiŌOōoŪUūuǕÜǖüǞÄǟäǠȦǡȧǢÆǣæǬǪǭǫȪÖȫöȬÕȭõȰȮȱȯȲYȳyӢИӣиӮУӯуḠGḡgḸḶḹḷṜṚṝṛᾱαᾹΑῑιῙΙ",
   "\u0304ῡυῩΥ", "\u0306ĂAăaĔEĕeĞGğgĬIĭiŎOŏoŬUŭuЎУЙИйиўуӁЖӂжӐАӑаӖЕӗеḜȨḝȩẶẠặạᾰαᾸΑῐιῘΙῠυῨΥ",
   "\u0307ĊCċcĖEėeĠGġgİIŻZżzȦAȧaȮOȯoḂBḃbḊDḋdḞFḟfḢHḣhṀMṁmṄNṅnṖPṗpṘRṙrṠSṡsṤŚṥśṦŠṧšṨṢṩṣṪTṫtẆWẇwẊX",
   "\u0307ẋxẎYẏyẛſ𐗉𐗒𐗤𐗚",
   "\u0308ÄAËEÏIÖOÜUäaëeïiöoüuÿyŸYΪΙΫΥϊιϋυϔϒЁЕЇІёеїіӒАӓаӚӘӛәӜЖӝжӞЗӟзӤИӥиӦОӧоӪӨӫөӬЭӭэӰУӱуӴЧӵчӸЫ",
   "\u0308ӹыḦHḧhṎÕṏõṺŪṻūẄWẅwẌXẍxẗt", "\u0309ẢAảaẨÂẩâẲĂẳăẺEẻeỂÊểêỈIỉiỎOỏoỔÔổôỞƠởơỦUủuỬƯửưỶYỷy",
   "\u030aÅAåaŮUůuẘwẙy", "\u030bŐOőoŰUűuӲУӳу",
   "\u030cČCčcĎDďdĚEěeĽLľlŇNňnŘRřrŠSšsŤTťtŽZžzǍAǎaǏIǐiǑOǒoǓUǔuǙÜǚüǦGǧgǨKǩkǮƷǯʒǰjȞHȟh",
   "\u030fȀAȁaȄEȅeȈIȉiȌOȍoȐRȑrȔUȕuѶѴѷѵ", "\u0311ȂAȃaȆEȇeȊIȋiȎOȏoȒRȓrȖUȗu",
   "\u0313ἀαἈΑἐεἘΕἠηἨΗἰιἸΙὀοὈΟὐυὠωὨΩῤρ", "\u0314ἁαἉΑἑεἙΕἡηἩΗἱιἹΙὁοὉΟὑυὙΥὡωὩΩῥρῬΡ", "\u031bƠOơoƯUưu",
   "\u0323ḄBḅbḌDḍdḤHḥhḲKḳkḶLḷlṂMṃmṆNṇnṚRṛrṢSṣsṬTṭtṾVṿvẈWẉwẒZẓzẠAạaẸEẹeỊIịiỌOọoỢƠợơỤUụuỰƯựưỴYỵy",
   "\u0324ṲUṳu", "\u0325ḀAḁa", "\u0326ȘSșsȚTțt",
   "\u0327ÇCçcĢGģgĶKķkĻLļlŅNņnŖRŗrŞSşsŢTţtȨEȩeḐDḑdḨHḩh", "\u0328ĄAąaĘEęeĮIįiŲUųuǪOǫo",
   "\u032dḒDḓdḘEḙeḼLḽlṊNṋnṰTṱtṶUṷu", "\u032eḪHḫh", "\u0330ḚEḛeḬIḭiṴUṵu",
   "\u0331ḆBḇbḎDḏdḴKḵkḺLḻlṈNṉnṞRṟrṮTṯtẔZẕzẖh",
   "\u0338↚←↛→↮↔⇍⇐⇎⇔⇏⇒∄∃∉∈∌∋∤∣∦∥≁∼≄≃≇≅≉≈≠=≢≡≭≍≮<≯>≰≤≱≥≴≲≵≳≸≶≹≷⊀≺⊁≻⊄⊂⊅⊃⊈⊆⊉⊇⊬⊢⊭⊨⊮⊩⊯⊫⋠≼⋡≽⋢⊑⋣⊒⋪⊲⋫⊳",
   "\u0338⋬⊴⋭⊵", "\u0342ἆἀἇἁἎἈἏἉἦἠἧἡἮἨἯἩἶἰἷἱἾἸἿἹὖὐὗὑὟὙὦὠὧὡὮὨὯὩᾶα῁¨ῆη῏᾿ῖιῗϊ῟῾ῦυῧϋῶω",
   "\u0345ᾀἀᾁἁᾂἂᾃἃᾄἄᾅἅᾆἆᾇἇᾈἈᾉἉᾊἊᾋἋᾌἌᾍἍᾎἎᾏἏᾐἠᾑἡᾒἢᾓἣᾔἤᾕἥᾖἦᾗἧᾘἨᾙἩᾚἪᾛἫᾜἬᾝἭᾞἮᾟἯᾠὠᾡὡᾢὢᾣὣᾤὤᾥὥᾦὦᾧὧᾨὨᾩὩ",
   "\u0345ᾪὪᾫὫᾬὬᾭὭᾮὮᾯὯᾲὰᾳαᾴάᾷᾶᾼΑῂὴῃηῄήῇῆῌΗῲὼῳωῴώῷῶῼΩ", "\u0653\u0622\u0627",
   "\u0654\u0623\u0627\u0624\u0648\u0626\u064a\u06c0\u06d5\u06c2\u06c1\u06d3\u06d2",
   "\u0655\u0625\u0627", "\u093cऩनऱरऴळ", "\u09be\u09cb\u09c7", "\u09d7\u09cc\u09c7",
   "\u0b3e\u0b4b\u0b47", "\u0b56\u0b48\u0b47", "\u0b57\u0b4c\u0b47",
   "\u0bbe\u0bca\u0bc6\u0bcb\u0bc7", "\u0bd7ஔஒ\u0bcc\u0bc6", "\u0c56\u0c48\u0c46",
   "\u0cc2\u0cca\u0cc6", "\u0cd5\u0cc0\u0cbf\u0cc7\u0cc6\u0ccb\u0cca", "\u0cd6\u0cc8\u0cc6",
   "\u0d3e\u0d4a\u0d46\u0d4b\u0d47", "\u0d57\u0d4c\u0d46", "\u0dca\u0dda\u0dd9\u0ddd\u0ddc",
   "\u0dcf\u0ddc\u0dd9", "\u0ddf\u0dde\u0dd9", "\u102eဦဥ",
   "\u1b35ᬆᬅᬈᬇᬊᬉᬌᬋᬎᬍᬒᬑ\u1b3b\u1b3a\u1b3d\u1b3c\u1b40\u1b3e\u1b41\u1b3f\u1b43\u1b42",
   "\u3099がかぎきぐくげけごこざさじしずすぜせぞそだたぢちづつでてどとばはびひぶふべへぼほゔうゞゝガカギキグクゲケゴコザサジシズスゼセゾソダタヂチヅツデテドトバハビヒブフベヘボホ",
   "\u3099ヴウヷワヸヰヹヱヺヲヾヽ", "\u309aぱはぴひぷふぺへぽほパハピヒプフペヘポホ", "𑂺𑂚𑂙𑂜𑂛𑂫𑂥", "𑄧𑄮𑄱𑄯𑄲", "𑌾𑍋𑍇", "𑍗𑍌𑍇", "𑎸𑏇𑏂",
   "𑎻𑎅𑎄", "𑏂𑎎𑎎𑏅", "𑏉𑎃𑎂𑎑𑎐𑏈𑏂", "𑒰𑒼𑒹", "𑒺𑒻𑒹", "𑒽𑒾𑒹", "𑖯𑖺𑖸𑖻𑖹", "𑤰𑤸𑤵", "𖄡𖄡", "𖄟𖄣𖄧𖄩𖄦𖄡𖄧𖄢", "𖄠𖄥𖄡𖄥𖄡",
   "𖄩𖄢𖄞", "𖵨𖵨𖵩𖵣𖵪𖵩"]

end SourceAudit.Text
