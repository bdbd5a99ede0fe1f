namespace SourceAudit.Url.Idna

/-- Characters with the one character that they stand for in a domain name, in pairs. -/
def singles : List String :=
  ["ªa²2³3µμ¹1ºoĀāĂăĄąĆćĈĉĊċČčĎďĐđĒēĔĕĖėĘęĚěĜĝĞğĠġĢģĤĥĦħĨĩĪīĬĭĮįĴĵĶķĹĺĻļĽľŁłŃńŅņŇňŊŋŌōŎŏŐőŒœŔŕŖŗ",
   "ŘřŚśŜŝŞşŠšŢţŤťŦŧŨũŪūŬŭŮůŰűŲųŴŵŶŷŸÿŹźŻżŽžſsƁɓƂƃƄƅƆɔƇƈƉɖƊɗƋƌƓɠƔɣƖɩƗɨƘƙƜɯƝɲƟɵƠơƢƣƤƥƦʀƧƨƩʃƬƭƮʈƯư",
   "ƱʊƲʋƳƴƵƶƷʒƸƹƼƽǍǎǏǐǑǒǓǔǕǖǗǘǙǚǛǜǞǟǠǡǢǣǤǥǦǧǨǩǪǫǬǭǮǯǴǵǶƕǷƿǸǹǺǻǼǽǾǿȀȁȂȃȄȅȆȇȈȉȊȋȌȍȎȏȐȑȒȓȔȕȖȗȘșȚțȜȝ",
   "ȞȟȠƞȢȣȤȥȦȧȨȩȪȫȬȭȮȯȰȱȲȳȺⱥȻȼȽƚȾⱦɁɂɈɉɊɋɌɍɎɏ\u0340\u0300\u0341\u0301\u0343\u0313\u0345ιͰͱͲͳʹʹͶͷ",
   ";;ͿϳΌόΎύΏώϘϙϚϛϜϝϞϟϠϡϢϣϤϥϦϧϨϩϪϫϬϭϮϯϰκϱρϲσϴθϵεϷϸϹσϺϻѠѡѢѣѤѥѦѧѨѩѪѫѬѭѮѯѰѱѲѳѴѵѶѷѸѹѺѻѼѽѾѿҀҁҊҋҌҍҎҏҐґ",
   "ҒғҔҕҖҗҘҙҚқҜҝҞҟҠҡҢңҤҥҦҧҨҩҪҫҬҭҮүҰұҲҳҴҵҶҷҸҹҺһҼҽҾҿӀӏӁӂӃӄӅӆӇӈӉӊӋӌӍӎӐӑӒӓӔӕӖӗӘәӚӛӜӝӞӟӠӡӢӣӤӥӦӧӨөӪӫӬӭ",
   "ӮӯӰӱӲӳӴӵӶӷӸӹӺӻӼӽӾӿԀԁԂԃԄԅԆԇԈԉԊԋԌԍԎԏԐԑԒԓԔԕԖԗԘԙԚԛԜԝԞԟԠԡԢԣԤԥԦԧԨԩԪԫԬԭԮԯ\u0558է༌་ჇⴧჍⴭჼნᲽჽᲾჾᲿჿᴬaᴭæ",
   "ᴮbᵸнḀḁḂḃḄḅḆḇḈḉḊḋḌḍḎḏḐḑḒḓḔḕḖḗḘḙḚḛḜḝḞḟḠḡḢḣḤḥḦḧḨḩḪḫḬḭḮḯḰḱḲḳḴḵḶḷḸḹḺḻḼḽḾḿṀṁṂṃṄṅṆṇṈṉṊṋṌṍṎṏṐṑṒṓṔṕṖṗ",
   "ṘṙṚṛṜṝṞṟṠṡṢṣṤṥṦṧṨṩṪṫṬṭṮṯṰṱṲṳṴṵṶṷṸṹṺṻṼṽṾṿẀẁẂẃẄẅẆẇẈẉẊẋẌẍẎẏẐẑẒẓẔẕẛṡẞßẠạẢảẤấẦầẨẩẪẫẬậẮắẰằẲẳẴẵẶặẸẹ",
   "ẺẻẼẽẾếỀềỂểỄễỆệỈỉỊịỌọỎỏỐốỒồỔổỖỗỘộỚớỜờỞởỠỡỢợỤụỦủỨứỪừỬửỮữỰựỲỳỴỵỶỷỸỹỺỻỼỽỾỿὙὑὛὓὝὕὟὗάάέέήήίίόόύύώώ",
   "ιιΐΐΰΰ``‑‐⁰0ⁱiℂcℇɛℕnℤzΩωℨzⅠiⅤvⅩxⅴvⅹxↃↄ〈〈〉〉ⱠⱡⱢɫⱣᵽⱤɽⱧⱨⱩⱪⱫⱬⱲⱳⱵⱶⲂⲃⲄⲅⲆⲇⲈⲉⲊⲋⲌⲍⲎⲏⲐⲑⲒⲓⲔⲕⲖⲗⲘⲙⲚⲛⲜⲝⲞⲟⲠⲡ",
   "ⲢⲣⲤⲥⲦⲧⲨⲩⲪⲫⲬⲭⲮⲯⲰⲱⲲⲳⲴⲵⲶⲷⲸⲹⲺⲻⲼⲽⲾⲿⳀⳁⳂⳃⳄⳅⳆⳇⳈⳉⳊⳋⳌⳍⳎⳏⳐⳑⳒⳓⳔⳕⳖⳗⳘⳙⳚⳛⳜⳝⳞⳟⳠⳡⳢⳣⳫⳬⳭⳮⳲⳳⵯⵡ⺟母⻳龟。.〶〒〸十〹卄〺卅㉾우Ꙁꙁ",
   "ꙂꙃꙄꙅꙆꙇꙈꙉꙊꙋꙌꙍꙎꙏꙐꙑꙒꙓꙔꙕꙖꙗꙘꙙꙚꙛꙜꙝꙞꙟꙠꙡꙢꙣꙤꙥꙦꙧꙨꙩꙪꙫꙬꙭꚀꚁꚂꚃꚄꚅꚆꚇꚈꚉꚊꚋꚌꚍꚎꚏꚐꚑꚒꚓꚔꚕꚖꚗꚘꚙꚚꚛꚜъꚝьꜢꜣꜤꜥꜦꜧꜨꜩꜪꜫꜬꜭꜮꜯꜲꜳ",
   "ꜴꜵꜶꜷꜸꜹꜺꜻꜼꜽꜾꜿꝀꝁꝂꝃꝄꝅꝆꝇꝈꝉꝊꝋꝌꝍꝎꝏꝐꝑꝒꝓꝔꝕꝖꝗꝘꝙꝚꝛꝜꝝꝞꝟꝠꝡꝢꝣꝤꝥꝦꝧꝨꝩꝪꝫꝬꝭꝮꝯꝰꝯꝹꝺꝻꝼꝽᵹꝾꝿꞀꞁꞂꞃꞄꞅꞆꞇꞋꞌꞍɥꞐꞑꞒꞓꞖꞗꞘꞙꞚꞛ",
   "ꞜꞝꞞꞟꞠꞡꞢꞣꞤꞥꞦꞧꞨꞩꞶꞷꞸꞹꞺꞻꞼꞽꞾꞿꟀꟁꟂꟃꟉꟊ\ua7cbɤ\ua7cc\ua7cd\ua7ce\ua7cfꟐꟑ\ua7d2ꟓ\ua7d4ꟕꟖꟗꟘꟙ",
   "\ua7da\ua7db\ua7dcƛꟸħꟹœꭩʍ塚塚晴晴蘒蘒諸諸逸逸都都︐,︑、﹇[﹈]ￚᅳￛᅴￜᅵ￠¢￡£￢¬￤¦￥¥￦₩𐖔𐖻𐖕𐖼𝒞c𝒟d𝒢g𝒥j𝒦k𝒻f𝕆o𞸡ب𞸢ج𞸤ه𞸧ح𞸹ض",
   "𞸻غ𞹂ج𞹇ح𞹉ي𞹋ل𞹍ن𞹎س𞹏ع𞹑ص𞹒ق𞹔ش𞹗خ𞹙ض𞹛غ𞹝ں𞹟ٯ𞹡ب𞹢ج𞹤ه𞹾ڡ𞺡ب𞺢ج𞺣د🄫c🄬r🈂サ🉐得🉑可"]

/-- Stretches of such characters that follow each other: the first of them, then what each one stands
    for. -/
def singleRuns : List String :=
  ["Ààáâãäåæçèéêëìíîïðñòóôõö", "Øøùúûüýþ", "Ǝǝəɛƒ", "Ƀƀʉʌɇ", "ʰhɦjrɹɻʁwy", "ˠɣlsxʕ", "Άά·έήί",
   "Ααβγδεζηθικλμνξοπρ", "Σστυφχψωϊϋ", "Ϗϗβθυύϋφπ",
   "Ͻͻͼͽѐёђѓєѕіїјљњћќѝўџабвгдежзийклмнопрстуфхцчшщъыьэюя", "Աաբգդեզէըթժիլխծկհձղճմյնշոչպջռսվտրցւփքօֆ",
   "Ⴀⴀⴁⴂⴃⴄⴅⴆⴇⴈⴉⴊⴋⴌⴍⴎⴏⴐⴑⴒⴓⴔⴕⴖⴗⴘⴙⴚⴛⴜⴝⴞⴟⴠⴡⴢⴣⴤⴥ", "ᏸᏰᏱᏲᏳᏴᏵ", "ᲀвдосттъѣꙋ\u1c8a",
   "Ააბგდევზთიკლმნოპჟრსტუფქღყშჩცძწჭხჯჰჱჲჳჴჵჶჷჸჹჺ", "ᴰdeǝghijklmn", "ᴼoȣprtuwaɐɑᴂbdeəɛɜg",
   "ᵏkmŋoɔᴖᴗptuᴝɯvᴥβγδφχiruvβγρφχ", "ᶛɒcɕðɜfɟɡɥɨɩɪᵻʝɭᶅʟɱɰɲɳɴɵɸʂʃƫʉʊᴜʋʌzʐʑʒθ", "Ἀἀἁἂἃἄἅἆἇ", "Ἐἐἑἒἓἔἕ",
   "Ἠἠἡἢἣἤἥἦἧ", "Ἰἰἱἲἳἴἵἶἷ", "Ὀὀὁὂὃὄὅ", "Ὠὠὡὢὣὤὥὦὧ", "Ᾰᾰᾱὰά", "Ὲὲέὴή", "Ῐῐῑὶί", "Ῠῠῡὺύῥ", "Ὸὸόὼώ",
   "⁴456789+−=()n0123456789+−=()", "ₐaeoxəhklmnpstwyz", "ℊghhhhħiill", "ℙpqrrr", "Kkåbc",
   "ℯeefⅎmoאבגדi", "ℼπγγπ∑", "ⅅddeij", "Ⅼlcdmi", "ⅼlcdm", "①123456789",
   "Ⓐabcdefghijklmnopqrstuvwxyzabcdefghijklmnopqrstuvwxyz0",
   "Ⰰⰰⰱⰲⰳⰴⰵⰶⰷⰸⰹⰺⰻⰼⰽⰾⰿⱀⱁⱂⱃⱄⱅⱆⱇⱈⱉⱊⱋⱌⱍⱎⱏⱐⱑⱒⱓⱔⱕⱖⱗⱘⱙⱚⱛⱜⱝⱞⱟ", "Ɑɑɱɐɒ", "ⱼjvȿɀⲁ",
   "⼀一丨丶丿乙亅二亠人儿入八冂冖冫几凵刀力勹匕匚匸十卜卩厂厶又口囗土士夂夊夕大女子宀寸小尢尸屮山巛工己巾干幺广廴廾弋弓彐彡彳心戈戶手支攴文斗斤方无日曰月木欠止歹殳毋比毛氏气水火爪父爻爿片",
   "⽛牙牛犬玄玉瓜瓦甘生用田疋疒癶白皮皿目矛矢石示禸禾穴立竹米糸缶网羊羽老而耒耳聿肉臣自至臼舌舛舟艮色艸虍虫血行衣襾見角言谷豆豕豸貝赤走足身車辛辰辵邑酉釆里金長門阜隶隹雨靑非面革韋韭音頁風",
   "⾶飛食首香馬骨高髟鬥鬯鬲鬼魚鳥鹵鹿麥麻黃黍黑黹黽鼎鼓鼠鼻齊齒龍龜龠", "ㄱᄀᄁᆪᄂᆬᆭᄃᄄᄅᆰᆱᆲᆳᆴᆵᄚᄆᄇᄈᄡᄉᄊᄋᄌᄍᄎᄏᄐᄑ하ᅢᅣᅤᅥᅦᅧᅨᅩᅪᅫᅬᅭᅮᅯᅰᅱᅲᅳᅴᅵ",
   "ㅥᄔᄕᇇᇈᇌᇎᇓᇗᇙᄜᇝᇟᄝᄞᄠᄢᄣᄧᄩᄫᄬᄭᄮᄯᄲᄶᅀᅇᅌᇱᇲᅗᅘᅙᆄᆅᆈᆑᆒᆔᆞᆡ", "㆒一二三四上中下甲乙丙丁天地人", "㉄問幼文箏",
   "㉠ᄀᄂᄃᄅᄆᄇᄉᄋᄌᄎᄏᄐᄑᄒ가나다라마바사아자차카타파하", "㊀一二三四五六七八九十月火水木金土日株有社名特財祝労秘男女適優印注項休写正上中下左右医宗学監企資協夜",
   "㋐アイウエオカキクケコサシスセソタチツテトナニヌネノハヒフヘホマミムメモヤユヨラリルレロワヰヱヲ", "Ɦɦɜɡɬɪ", "Ʞʞʇʝꭓꞵ", "Ꞔꞔʂᶎꟈ", "\ua7f1scfqꟶ",
   "ꭜꜧꬷɫꭒ", "ꭰᎠᎡᎢᎣᎤᎥᎦᎧᎨᎩᎪᎫᎬᎭᎮᎯᎰᎱᎲᎳᎴᎵᎶᎷᎸᎹᎺᎻᎼᎽᎾᎿᏀᏁᏂᏃᏄᏅᏆᏇᏈᏉᏊᏋᏌᏍᏎᏏᏐᏑᏒᏓᏔᏕᏖᏗᏘᏙᏚᏛᏜᏝᏞᏟᏠᏡᏢᏣᏤᏥᏦᏧᏨᏩᏪᏫᏬᏭᏮᏯ",
   "豈豈更車賈滑串句龜龜契金喇奈懶癩羅蘿螺裸邏樂洛烙珞落酪駱亂卵欄爛蘭鸞嵐濫藍襤拉臘蠟廊朗浪狼郎來冷勞擄櫓爐盧老蘆虜路露魯鷺碌祿綠菉錄鹿論壟弄籠聾牢磊賂雷壘屢樓淚漏累縷陋勒肋凜凌稜綾菱陵讀",
   "拏拏樂諾丹寧怒率異北磻便復不泌數索參塞省葉說殺辰沈拾若掠略亮兩凉梁糧良諒量勵呂女廬旅濾礪閭驪麗黎力曆歷轢年憐戀撚漣煉璉秊練聯輦蓮連鍊列劣咽烈裂說廉念捻殮簾獵令囹寧嶺怜玲瑩羚聆鈴零靈領例",
   "禮禮醴隸惡了僚寮尿料樂燎療蓼遼龍暈阮劉杻柳流溜琉留硫紐類六戮陸倫崙淪輪律慄栗率隆利吏履易李梨泥理痢罹裏裡里離匿溺吝燐璘藺隣鱗麟林淋臨立笠粒狀炙識什茶刺切度拓糖宅洞暴輻行降見廓兀嗀",
   "凞凞猪益礼神祥福靖精羽", "飯飯飼館鶴郞隷侮僧免勉勤卑喝嘆器塀墨層屮悔慨憎懲敏既暑梅海渚漢煮爫琢碑社祉祈祐祖祝禍禎穀突節練縉繁署者臭艹艹著褐視謁謹賓贈辶逸難響頻恵𤋮舘",
   "並並况全侀充冀勇勺喝啕喙嗢塚墳奄奔婢嬨廒廙彩徭惘慎愈憎慠懲戴揄搜摒敖晴朗望杖歹殺流滛滋漢瀞煮瞧爵犯猪瑱甆画瘝瘟益盛直睊着磌窱節类絛練缾者荒華蝹襁覆視調諸請謁諾諭謹變贈輸遲醙鉶陼難靖韛響",
   "頋頋頻鬒龜𢡊𢡄𣏕㮝䀘䀹𥉉𥳐𧻓齃龎", "ﬠעאדהכלםרת+",
   "ﭐٱٱٻٻٻٻپپپپڀڀڀڀٺٺٺٺٿٿٿٿٹٹٹٹڤڤڤڤڦڦڦڦڄڄڄڄڃڃڃڃچچچچڇڇڇڇڍڍڌڌڎڎڈڈژژڑڑککککگگگگڳڳڳڳڱڱڱڱںںڻڻڻڻۀۀہہہہھ",
   "ﮫھھھےےۓۓ", "ﯓڭڭڭڭۇۇۆۆۈۈ", "ﯞۋۋۅۅۉۉېېېېىى", "ﯼیییی", "︓:;!?〖〗", "︱—–__()\x7b\x7d〔〕【】《》〈〉「」『』",
   "﹍___,、", "﹔;:?!—()\x7b\x7d〔〕#&*+-<>=", "﹨\x5c$%@",
   "ﺀءآآأأؤؤإإئئئئااببببةةتتتتثثثثججججححححخخخخددذذررززسسسسششششصصصصضضضضططططظظظظععععغغغغففففققققكك",
   "ﻛككللللممممننننههههووىىيييي",
   "！!\x22#$%&'()*+,-./0123456789:;<=>?@abcdefghijklmnopqrstuvwxyz[\x5c]^_`abcdefghijklmnopqrstu",
   "ｖvwxyz\x7b|\x7d~⦅⦆.「」、・ヲァィゥェォャュョッーアイウエオカキクケコサシスセソタチツテトナニヌネノハヒフヘホマミムメモヤユヨラリルレロワン\u3099\u309a",
   "ﾡᄀᄁᆪᄂᆬᆭᄃᄄᄅᆰᆱᆲᆳᆴᆵᄚᄆᄇᄈᄡᄉᄊᄋᄌᄍᄎᄏᄐᄑᄒ", "ￂᅡᅢᅣᅤᅥᅦ", "ￊᅧᅨᅩᅪᅫᅬ", "ￒᅭᅮᅯᅰᅱᅲ", "￨│←↑→↓■○",
   "𐐀𐐨𐐩𐐪𐐫𐐬𐐭𐐮𐐯𐐰𐐱𐐲𐐳𐐴𐐵𐐶𐐷𐐸𐐹𐐺𐐻𐐼𐐽𐐾𐐿𐑀𐑁𐑂𐑃𐑄𐑅𐑆𐑇𐑈𐑉𐑊𐑋𐑌𐑍𐑎𐑏", "𐒰𐓘𐓙𐓚𐓛𐓜𐓝𐓞𐓟𐓠𐓡𐓢𐓣𐓤𐓥𐓦𐓧𐓨𐓩𐓪𐓫𐓬𐓭𐓮𐓯𐓰𐓱𐓲𐓳𐓴𐓵𐓶𐓷𐓸𐓹𐓺𐓻",
   "𐕰𐖗𐖘𐖙𐖚𐖛𐖜𐖝𐖞𐖟𐖠𐖡", "𐕼𐖣𐖤𐖥𐖦𐖧𐖨𐖩𐖪𐖫𐖬𐖭𐖮𐖯𐖰𐖱", "𐖌𐖳𐖴𐖵𐖶𐖷𐖸𐖹", "𐞁ːˑæʙɓ",
   "𐞇ʣꭦʥʤɖɗᶑɘɞʩɤɢɠʛħʜɧʄʪʫɬ𝼄ꞎɮ𝼅ʎ𝼆øɶɷqɺ𝼈ɽɾʀʨʦꭧʧʈⱱ", "𐞲ʏʡʢʘǀǁǂ𝼊𝼞ʇ",
   "𐲀𐳀𐳁𐳂𐳃𐳄𐳅𐳆𐳇𐳈𐳉𐳊𐳋𐳌𐳍𐳎𐳏𐳐𐳑𐳒𐳓𐳔𐳕𐳖𐳗𐳘𐳙𐳚𐳛𐳜𐳝𐳞𐳟𐳠𐳡𐳢𐳣𐳤𐳥𐳦𐳧𐳨𐳩𐳪𐳫𐳬𐳭𐳮𐳯𐳰𐳱𐳲", "𐵐𐵰𐵱𐵲𐵳𐵴𐵵𐵶𐵷𐵸𐵹𐵺𐵻𐵼𐵽𐵾𐵿𐶀𐶁𐶂𐶃𐶄𐶅",
   "𑢠𑣀𑣁𑣂𑣃𑣄𑣅𑣆𑣇𑣈𑣉𑣊𑣋𑣌𑣍𑣎𑣏𑣐𑣑𑣒𑣓𑣔𑣕𑣖𑣗𑣘𑣙𑣚𑣛𑣜𑣝𑣞𑣟", "𖹀𖹠𖹡𖹢𖹣𖹤𖹥𖹦𖹧𖹨𖹩𖹪𖹫𖹬𖹭𖹮𖹯𖹰𖹱𖹲𖹳𖹴𖹵𖹶𖹷𖹸𖹹𖹺𖹻𖹼𖹽𖹾𖹿",
   "𖺠𖺻𖺼𖺽𖺾𖺿𖻀𖻁𖻂𖻃𖻄𖻅𖻆𖻇𖻈𖻉𖻊𖻋𖻌𖻍𖻎𖻏𖻐𖻑𖻒𖻓", "𜳖abcdefghijklmnopqrstuvwxyz0123456789",
   "𝐀abcdefghijklmnopqrstuvwxyzabcdefghijklmnopqrstuvwxyzabcdefghijklmnopqrstuvwxyzabcdefg",
   "𝑖ijklmnopqrstuvwxyzabcdefghijklmnopqrstuvwxyzabcdefghijklmnopqrstuvwxyza", "𝒩nopq",
   "𝒮stuvwxyzabcd", "𝒽hijklmn", "𝓅pqrstuvwxyzabcdefghijklmnopqrstuvwxyzabcdefghijklmnopqrstuvwxyzab",
   "𝔇defg", "𝔍jklmnopq", "𝔖stuvwxy", "𝔞abcdefghijklmnopqrstuvwxyzab", "𝔻defg", "𝕀ijklm", "𝕊stuvwxy",
   "𝕒abcdefghijklmnopqrstuvwxyzabcdefghijklmnopqrstuvwxyzabcdefghijklmnopqrstuvwxyzabcdefghijklm",
   "𝖭nopqrstuvwxyzabcdefghijklmnopqrstuvwxyzabcdefghijklmnopqrstuvwxyzabcdefghijklmnopqrstuvwxyz",
   "𝘈abcdefghijklmnopqrstuvwxyzabcdefghijklmnopqrstuvwxyzabcdefghijklmnopqrstuvwxyzabcdefghijklm",
   "𝙣nopqrstuvwxyzabcdefghijklmnopqrstuvwxyzabcdefghijklmnopqrstuvwxyzıȷ",
   "𝚨αβγδεζηθικλμνξοπρθστυφχψω∇αβγδεζηθικλμνξοπρσστυφχψω∂εθκφρπαβγδεζηθικλμνξοπρθστυφχψω∇αβγδεζη",
   "𝜃θικλμνξοπρσστυφχψω∂εθκφρπαβγδεζηθικλμνξοπρθστυφχψω∇αβγδεζηθικλμνξοπρσστυφχψω∂εθκφρπαβγδεζηθ",
   "𝝞ικλμνξοπρθστυφχψω∇αβγδεζηθικλμνξοπρσστυφχψω∂εθκφρπαβγδεζηθικλμνξοπρθστυφχψω∇αβγδεζηθικλμνξο",
   "𝞹πρσστυφχψω∂εθκφρπϝϝ", "𝟎01234567890123456789012345678901234567890123456789",
   "𞀰абвгдежзиклмопрстуфхцчшыэюꚉәіјөүӏабвгдежзиклопсуфхцчшъыґіѕџҫꙑұ",
   "𞤀𞤢𞤣𞤤𞤥𞤦𞤧𞤨𞤩𞤪𞤫𞤬𞤭𞤮𞤯𞤰𞤱𞤲𞤳𞤴𞤵𞤶𞤷𞤸𞤹𞤺𞤻𞤼𞤽𞤾𞤿𞥀𞥁𞥂𞥃", "𞸀ابجد", "𞸅وزحطيكلمنسعفصقرشتثخذضظغٮںڡٯ", "𞸩يكلمنسعفصق",
   "𞸴شتثخ", "𞹧حطيك", "𞹬منسعفصق", "𞹴شتثخ", "𞹹ضظغٮ", "𞺀ابجدهوزحطي", "𞺋لمنسعفصقرشتثخذضظغ", "𞺥وزحطي",
   "𞺫لمنسعفصقرشتثخذضظغ", "🄰abcdefghijklmnopqrstuvwxyz",
   "🈐手字双デ二多解天交映無料前後再新初終生販声吹演投捕一三遊左中右指走打禁空合満有月申割営配", "🯰0123456789",
   "丽丽丸乁𠄢你侮侻倂偺備僧像㒞𠘺免兔兤具𠔜㒹內再𠕋冗冤仌冬况𩇟凵刃㓟刻剆割剷㔕勇勉勤勺包匆北卉卑博即卽卿卿卿𠨬灰及叟𠭣叫叱吆咞吸呈周咢哶唐啓啣善善喙喫喳嗂圖嘆圗噑噴切壮城埴堍型堲報墬𡓤売",
   "壷壷夆多夢奢𡚨𡛪姬娛娧姘婦㛮㛼嬈嬾嬾𡧈寃寘寧寳𡬘寿将当尢㞁屠屮峀岍𡷤嵃𡷦嵮嵫嵼巡巢㠯巽帨帽幩㡢𢆃㡼庰庳庶廊𪎒廾𢌱𢌱舁弢弢㣇𣊸𦇚形彫㣣徚忍志忹悁㤺㤜悔𢛔惇慈慌慎慌慺憎憲憤憯懞懲懶成戛扝抱",
   "拔拔捐𢬌挽拼捨掃揤𢯱搢揅掩㨮摩摾撝摷㩬敏敬𣀊旣書晉㬙暑㬈㫤冒冕最暜肭䏙朗望朡杞杓𣏃㭉柺枅桒梅𣑭梎栟椔㮝楂榣槪檨𣚣櫛㰘次𣢧歔㱎歲殟殺殻𣪍𡴋𣫺汎𣲼沿泍汧洖派海流浩浸涅𣴞洴港湮㴳滋滇𣻑淹潮𣽞",
   "𣾎𣾎濆瀹瀞瀛㶖灊災灷炭𠔥煅𤉣熜𤎫爨爵牐𤘈犀犕𤜵𤠔獺王㺬玥㺸㺸瑇瑜瑱璅瓊㼛甤𤰶甾𤲒異𢆟瘐𤾡𤾸𥁄㿼䀈直𥃳𥃲𥄙𥄳眞真真睊䀹瞋䁆䂖𥐝硎碌磌䃣𥘦祖𥚚𥛅福秫䄯穀穊穏𥥼𥪧𥪧竮䈂𥮫篆築䈧𥲀糒䊠糨糣紀𥾆",
   "絣絣䌁緇縂繅䌴𦈨𦉇䍙𦋙罺𦌾羕翺者𦓚𦔣聠𦖨聰𣍟䏕育脃䐋脾媵𦞧𦞵𣎓𣎜舁舄辞䑫芑芋芝劳花芳芽苦𦬼若茝荣莭茣莽菧著荓菊菌菜𦰶𦵫𦳕䔫蓱蓳蔖𧏊蕤𦼬䕝䕡𦾱𧃒䕫虐虜虧虩蚩蚈蜎蛢蝹蜨蝫螆䗗蟡蠁䗹衠衣𧙧裗",
   "裞裞䘵裺㒻𧢮𧥦䚾䛇誠諭變豕𧲨貫賁贛起𧼯𠠄跋趼跰𠣞軔輸𨗒𨗭邔郱鄑𨜮鄛鈸鋗鋘鉼鏹鐕𨯺開䦕閷𨵷䧦雃嶲霣𩅅𩈚䩮䩶韠𩐊䪲𩒖頋頋頩𩖶飢䬳餩馧駂駾䯎𩬰鬒鱀鳽䳎䳭鵧𪃎䳸𪄅𪈎𪊑麻䵖黹黾鼅鼏鼖鼻𪘀"]

/-- Stretches of characters that follow each other and stand for more than one character each: the
    first of them, then the texts with a space between them. -/
def expansions : List String :=
  ["¼1⁄4 1⁄2 3⁄4", "İi\u0307", "Ĳij ij", "Ŀl· l·", "ŉʼn", "Ǆdž dž dž lj lj lj nj nj nj", "Ǳdz dz dz",
   "\u0344\u0308\u0301", "ևեւ", "ٵاٴ وٴ ۇٴ يٴ",
   "क़क\u093c ख\u093c ग\u093c ज\u093c ड\u093c ढ\u093c फ\u093c य\u093c", "ড়ড\u09bc ঢ\u09bc",
   "য়য\u09bc", "ਲ਼ਲ\u0a3c", "ਸ਼ਸ\u0a3c", "ਖ਼ਖ\u0a3c ਗ\u0a3c ਜ\u0a3c", "ਫ਼ਫ\u0a3c", "ଡ଼ଡ\u0b3c ଢ\u0b3c",
   "ำ\u0e4dา", "ຳ\u0ecdາ", "ໜຫນ ຫມ", "གྷག\u0fb7", "ཌྷཌ\u0fb7", "དྷད\u0fb7", "བྷབ\u0fb7", "ཛྷཛ\u0fb7",
   "ཀྵཀ\u0fb5", "\u0f73\u0f71\u0f72",
   "\u0f75\u0f71\u0f74 \u0fb2\u0f80 \u0fb2\u0f71\u0f80 \u0fb3\u0f80 \u0fb3\u0f71\u0f80",
   "\u0f81\u0f71\u0f80", "\u0f93\u0f92\u0fb7", "\u0f9d\u0f9c\u0fb7", "\u0fa2\u0fa1\u0fb7",
   "\u0fa7\u0fa6\u0fb7", "\u0fac\u0fab\u0fb7", "\u0fb9\u0f90\u0fb5", "ẚaʾ",
   "ᾀἀι ἁι ἂι ἃι ἄι ἅι ἆι ἇι ἀι ἁι ἂι ἃι ἄι ἅι ἆι ἇι ἠι ἡι ἢι ἣι ἤι ἥι ἦι ἧι ἠι ἡι ἢι ἣι ἤι ἥι",
   "ᾞἦι ἧι ὠι ὡι ὢι ὣι ὤι ὥι ὦι ὧι ὠι ὡι ὢι ὣι ὤι ὥι ὦι ὧι", "ᾲὰι αι άι", "ᾷᾶι", "ᾼαι", "ῂὴι ηι ήι",
   "ῇῆι", "ῌηι", "ῲὼι ωι ώι", "ῷῶι", "ῼωι", "″′′ ′′′", "‶‵‵ ‵‵‵", "‼!!", "⁇?? ?! !?", "⁗′′′′", "₨rs",
   "℀a/c a/s", "℃°c", "℅c/o c/u", "℉°f", "№no", "℠sm tel tm", "℻fax",
   "⅐1⁄7 1⁄9 1⁄10 1⁄3 2⁄3 1⁄5 2⁄5 3⁄5 4⁄5 1⁄6 5⁄6 1⁄8 3⁄8 5⁄8 7⁄8 1⁄", "Ⅱii iii iv",
   "Ⅵvi vii viii ix", "Ⅺxi xii", "ⅱii iii iv", "ⅵvi vii viii ix", "ⅺxi xii", "↉0⁄3", "∬∫∫ ∫∫∫",
   "∯∮∮ ∮∮∮",
   "⑩10 11 12 13 14 15 16 17 18 19 20 (1) (2) (3) (4) (5) (6) (7) (8) (9) (10) (11) (12) (13)",
   "⒁(14) (15) (16) (17) (18) (19) (20)",
   "⒜(a) (b) (c) (d) (e) (f) (g) (h) (i) (j) (k) (l) (m) (n) (o) (p) (q) (r) (s) (t) (u) (v) (w)",
   "⒳(x) (y) (z)", "⨌∫∫∫∫", "⩴::= == ===", "⫝̸⫝\u0338", "ゟより", "ヿコト",
   "㈀(ᄀ) (ᄂ) (ᄃ) (ᄅ) (ᄆ) (ᄇ) (ᄉ) (ᄋ) (ᄌ) (ᄎ) (ᄏ) (ᄐ) (ᄑ) (ᄒ) (가) (나) (다) (라) (마) (바) (사) (아) (자)",
   "㈗(차) (카) (타) (파) (하) (주) (오전) (오후)",
   "㈠(一) (二) (三) (四) (五) (六) (七) (八) (九) (十) (月) (火) (水) (木) (金) (土) (日) (株) (有) (社) (名) (特) (財)",
   "㈷(祝) (労) (代) (呼) (学) (監) (企) (資) (協) (祭) (休) (自) (至)",
   "㉐pte 21 22 23 24 25 26 27 28 29 30 31 32 33 34 35", "㉼참고 주의",
   "㊱36 37 38 39 40 41 42 43 44 45 46 47 48 49 50 1月 2月 3月 4月 5月 6月 7月 8月 9月 10月 11月 12月 hg erg",
   "㋎ev ltd",
   "㋿令和 アパート アルファ アンペア アール イニング インチ ウォン エスクード エーカー オンス オーム カイリ カラット カロリー ガロン ガンマ ギガ ギニー キュリー",
   "㌓ギルダー キロ キログラム キロメートル キロワット グラム グラムトン クルゼイロ クローネ ケース コルナ コーポ サイクル サンチーム シリング センチ セント ダース デシ",
   "㌦ドル トン ナノ ノット ハイツ パーセント パーツ バーレル ピアストル ピクル ピコ ビル ファラッド フィート ブッシェル フラン ヘクタール ペソ ペニヒ ヘルツ ペンス",
   "㌻ページ ベータ ポイント ボルト ホン ポンド ホール ホーン マイクロ マイル マッハ マルク マンション ミクロン ミリ ミリバール メガ メガトン メートル ヤード ヤール",
   "㍐ユアン リットル リラ ルピー ルーブル レム レントゲン ワット 0点 1点 2点 3点 4点 5点 6点 7点 8点 9点 10点 11点 12点 13点 14点 15点 16点",
   "㍩17点 18点 19点 20点 21点 22点 23点 24点 hpa da au bar ov pc dm dm2 dm3 iu 平成 昭和 大正 明治 株式会社 pa na μa",
   "㎃ma ka kb mb gb cal kcal pf nf μf μg mg kg hz khz mhz ghz thz μl ml dl kl fm nm μm mm cm km",
   "㎟mm2 cm2 m2 km2 mm3 cm3 m3 km3 m∕s m∕s2 pa kpa mpa gpa rad rad∕s rad∕s2 ps ns μs ms pv nv μv",
   "㎷mv kv mv pw nw μw mw kw mw kω mω", "㏃bq cc cd c∕kg",
   "㏈db gy ha hp in kk km kt lm ln log lx mb mil mol ph",
   "㏙ppm pr sr sv wb v∕m a∕m 1日 2日 3日 4日 5日 6日 7日 8日 9日 10日 11日 12日 13日 14日 15日 16日 17日 18日 19日",
   "㏳20日 21日 22日 23日 24日 25日 26日 27日 28日 29日 30日 31日 gal", "ﬀff fi fl ffi ffl st st",
   "ﬓմն մե մի վն մխ", "יִי\u05b4", "ײַײ\u05b7",
   "שׁש\u05c1 ש\u05c2 ש\u05bc\u05c1 ש\u05bc\u05c2 א\u05b7 א\u05b8 א\u05bc ב\u05bc ג\u05bc ד\u05bc",
   "הּה\u05bc ו\u05bc ז\u05bc", "טּט\u05bc י\u05bc ך\u05bc כ\u05bc ל\u05bc", "מּמ\u05bc",
   "נּנ\u05bc ס\u05bc", "ףּף\u05bc פ\u05bc",
   "צּצ\u05bc ק\u05bc ר\u05bc ש\u05bc ת\u05bc ו\u05b9 ב\u05bf כ\u05bf פ\u05bf אל", "ﯝۇٴ",
   "ﯪئا ئا ئە ئە ئو ئو ئۇ ئۇ ئۆ ئۆ ئۈ ئۈ ئې ئې ئې ئى ئى ئى",
   "ﰀئج ئح ئم ئى ئي بج بح بخ بم بى بي تج تح تخ تم تى تي ثج ثم ثى ثي جح جم حج حم خج خح خم سج سح",
   "ﰞسخ سم صح صم ضج ضح ضخ ضم طح طم ظم عج عم غج غم فج فح فخ فم فى في قح قم قى قي كا كج كح كخ كل",
   "ﰼكم كى كي لج لح لخ لم لى لي مج مح مخ مم مى مي نج نح نخ نم نى ني هج هم هى هي يج يح يخ يم يى",
   "ﱚيي ذ\u0670 ر\u0670 ى\u0670",
   "ﱤئر ئز ئم ئن ئى ئي بر بز بم بن بى بي تر تز تم تن تى تي ثر ثز ثم ثن ثى ثي فى في قى قي كا كل",
   "ﲂكم كى كي لم لى لي ما مم نر نز نم نن نى ني ى\u0670 ير يز يم ين يى يي ئج ئح ئخ ئم ئه بج بح بخ",
   "ﲟبم به تج تح تخ تم ته ثم جح جم حج حم خج خم سج سح سخ سم صح صخ صم ضج ضح ضخ ضم طح ظم عج عم غج",
   "ﲽغم فج فح فخ فم قح قم كج كح كخ كل كم لج لح لخ لم له مج مح مخ مم نج نح نخ نم نه هج هم ه\u0670",
   "ﳚيج يح يخ يم يه ئم ئه بم به تم ته ثم ثه سم سه شم شه كل كم لم نم نه يم يه ـ\u064e\u0651",
   "ﳳـ\u064f\u0651 ـ\u0650\u0651 طى طي عى عي غى غي سى سي شى شي حى حي جى جي خى خي صى صي ضى ضي شج",
   "ﴊشح شخ شم شر سر صر ضر طى طي عى عي غى غي سى سي شى شي حى حي جى جي خى خي صى صي ضى ضي شج شح شخ",
   "ﴨشم شر سر صر ضر شج شح شخ شم سه شه طم سج سح سخ شج شح شخ طم ظم ا\u064b ا\u064b",
   "ﵐتجم تحج تحج تحم تخم تمج تمح تمخ جمح جمح حمي حمى سحج سجح سجى سمح سمح سمج سمم سمم صحح صحح صمم",
   "ﵧشحم شحم شجي شمخ شمخ شمم شمم ضحى ضخم ضخم طمح طمح طمم طمي عجم عمم عمم عمى غمم غمي غمى فخم فخم",
   "ﵾقمح قمم لحم لحي لحى لجج لجج لخم لخم لمح لمح محج محم محي مجح مجم مخج مخم",
   "ﶒمجخ همج همم نحم نحى نجم نجم نجى نمي نمى يمم يمم بخي تجي تجى تخي تخى تمي تمى جمي جحى جمى سخى",
   "ﶩصحي شحي ضحي لجي لمي يحي يجي يمي ممي قمي نحي قمح لحم عمي كمي نجح مخي لجم كمم لجم نجح جحي حجي",
   "ﷀمجي فمي بحي كمم عجم صمم سخي نجي", "ﷰصلے قلے الله اكبر محمد صلعم رسول عليه وسلم صلى", "﷼ریال",
   "ﹱـ\u064b", "ﹷـ\u064e", "ﹹـ\u064f", "ﹻـ\u0650", "ﹽـ\u0651", "ﹿـ\u0652",
   "ﻵلآ لآ لأ لأ لإ لإ لا لا", "𝅗𝅥𝅗𝅥 𝅘𝅥 𝅘𝅥𝅮 𝅘𝅥𝅯 𝅘𝅥𝅰 𝅘𝅥𝅱 𝅘𝅥𝅲", "𝆹𝅥𝆹𝅥 𝆺𝅥 𝆹𝅥𝅮 𝆺𝅥𝅮 𝆹𝅥𝅯 𝆺𝅥𝅯",
   "🄁0, 1, 2, 3, 4, 5, 6, 7, 8, 9,",
   "🄐(a) (b) (c) (d) (e) (f) (g) (h) (i) (j) (k) (l) (m) (n) (o) (p) (q) (r) (s) (t) (u) (v) (w)",
   "🄧(x) (y) (z) 〔s〕", "🄭cd wz", "🅊hv mv sd ss ppv wc", "🅪mc md mr", "🆐dj", "🈀ほか ココ",
   "🉀〔本〕 〔三〕 〔二〕 〔安〕 〔点〕 〔打〕 〔盗〕 〔勝〕 〔敗〕"]

end SourceAudit.Url.Idna
