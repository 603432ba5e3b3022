import Missive.Text.Split

/-!
# Names of characters

The names of the characters that fit in a byte, further names in common use included, and the names
of larger characters in the blocks of Greek, punctuation, currency signs, arrows and symbols. Of the
latter only the existence matters where every character has to be a byte.
-/

namespace Missive.Text

/-- What stands on some lines, separated by commas. -/
def entries (lines : List String) : List String := lines.flatMap (split ',')

/-- Names that start with one of some stems. -/
def starting (stems ends : List String) : List String :=
  stems.flatMap fun stem => (entries ends).map fun x => stem ++ " " ++ x

/-- The names of characters with subsequent codes, those of one character separated by bars. -/
def fromCode (code : Nat) (characters : List String) : List (String × Nat) :=
  ((entries characters).zipIdx code).flatMap fun (names, code) => (split '|' names).map (·, code)

def plainLetters : List String :=
  ["A,B,C,D,E,F,G,H,I,J,K,L,M,N,O,P,Q,R,S,T,U,V,W,X,Y,Z"]

/-- The first letters with an accent. -/
def accentedLetters : List String :=
  ["A WITH GRAVE,A WITH ACUTE,A WITH CIRCUMFLEX,A WITH TILDE,A WITH DIAERESIS,A WITH RING ABOVE,AE,C WITH CEDILLA",
   "E WITH GRAVE,E WITH ACUTE,E WITH CIRCUMFLEX,E WITH DIAERESIS,I WITH GRAVE,I WITH ACUTE,I WITH CIRCUMFLEX",
   "I WITH DIAERESIS,ETH,N WITH TILDE,O WITH GRAVE,O WITH ACUTE,O WITH CIRCUMFLEX,O WITH TILDE,O WITH DIAERESIS"]

def strokedLetters : List String :=
  ["O WITH STROKE,U WITH GRAVE,U WITH ACUTE,U WITH CIRCUMFLEX,U WITH DIAERESIS,Y WITH ACUTE,THORN"]

/-- The names of characters below 256, with their codes. -/
def byteNames : List (String × Nat) :=
  (starting ["DIGIT"] ["ZERO,ONE,TWO,THREE,FOUR,FIVE,SIX,SEVEN,EIGHT,NINE"]).zipIdx 0x30 ++
  (starting ["LATIN CAPITAL LETTER"] plainLetters).zipIdx 0x41 ++
  (starting ["LATIN SMALL LETTER"] plainLetters).zipIdx 0x61 ++
  (starting ["LATIN CAPITAL LETTER"] accentedLetters).zipIdx 0xc0 ++
  (starting ["LATIN SMALL LETTER"] accentedLetters).zipIdx 0xe0 ++
  (starting ["LATIN CAPITAL LETTER"] strokedLetters).zipIdx 0xd8 ++
  (starting ["LATIN SMALL LETTER"] strokedLetters).zipIdx 0xf8 ++
  fromCode 0x0
    ["NUL|NULL,SOH|START OF HEADING,START OF TEXT|STX,END OF TEXT|ETX,END OF TRANSMISSION|EOT,ENQ|ENQUIRY",
     "ACK|ACKNOWLEDGE,ALERT|BEL,BACKSPACE|BS,CHARACTER TABULATION|HORIZONTAL TABULATION|HT|TAB",
     "END OF LINE|EOL|LF|LINE FEED|NEW LINE|NL,LINE TABULATION|VERTICAL TABULATION|VT,FF|FORM FEED",
     "CARRIAGE RETURN|CR,LOCKING-SHIFT ONE|SHIFT OUT|SO,LOCKING-SHIFT ZERO|SHIFT IN|SI,DATA LINK ESCAPE|DLE",
     "DC1|DEVICE CONTROL ONE,DC2|DEVICE CONTROL TWO,DC3|DEVICE CONTROL THREE,DC4|DEVICE CONTROL FOUR",
     "NAK|NEGATIVE ACKNOWLEDGE,SYN|SYNCHRONOUS IDLE,END OF TRANSMISSION BLOCK|ETB,CAN|CANCEL,END OF MEDIUM|EOM",
     "SUB|SUBSTITUTE,ESC|ESCAPE,FILE SEPARATOR|FS|INFORMATION SEPARATOR FOUR",
     "GROUP SEPARATOR|GS|INFORMATION SEPARATOR THREE,INFORMATION SEPARATOR TWO|RECORD SEPARATOR|RS",
     "INFORMATION SEPARATOR ONE|UNIT SEPARATOR|US,SP|SPACE,EXCLAMATION MARK,QUOTATION MARK,NUMBER SIGN,DOLLAR SIGN",
     "PERCENT SIGN,AMPERSAND,APOSTROPHE,LEFT PARENTHESIS,RIGHT PARENTHESIS,ASTERISK,PLUS SIGN,COMMA,HYPHEN-MINUS",
     "FULL STOP,SOLIDUS"] ++
  fromCode 0x3a ["COLON,SEMICOLON,LESS-THAN SIGN,EQUALS SIGN,GREATER-THAN SIGN,QUESTION MARK,COMMERCIAL AT"] ++
  fromCode 0x5b
    ["LEFT SQUARE BRACKET,REVERSE SOLIDUS,RIGHT SQUARE BRACKET,CIRCUMFLEX ACCENT,LOW LINE,GRAVE ACCENT"] ++
  fromCode 0x7b
    ["LEFT CURLY BRACKET,VERTICAL LINE,RIGHT CURLY BRACKET,TILDE,DEL|DELETE,PAD|PADDING CHARACTER",
     "HIGH OCTET PRESET|HOP,BPH|BREAK PERMITTED HERE,NBH|NO BREAK HERE,IND|INDEX,NEL|NEXT LINE",
     "SSA|START OF SELECTED AREA,END OF SELECTED AREA|ESA,CHARACTER TABULATION SET|HORIZONTAL TABULATION SET|HTS",
     "CHARACTER TABULATION WITH JUSTIFICATION|HORIZONTAL TABULATION WITH JUSTIFICATION|HTJ",
     "LINE TABULATION SET|VERTICAL TABULATION SET|VTS,PARTIAL LINE DOWN|PARTIAL LINE FORWARD|PLD",
     "PARTIAL LINE BACKWARD|PARTIAL LINE UP|PLU,REVERSE INDEX|REVERSE LINE FEED|RI",
     "SINGLE SHIFT TWO|SINGLE-SHIFT-2|SS2,SINGLE SHIFT THREE|SINGLE-SHIFT-3|SS3,DCS|DEVICE CONTROL STRING",
     "PRIVATE USE ONE|PRIVATE USE-1|PU1,PRIVATE USE TWO|PRIVATE USE-2|PU2,SET TRANSMIT STATE|STS",
     "CANCEL CHARACTER|CCH,MESSAGE WAITING|MW,SPA|START OF GUARDED AREA|START OF PROTECTED AREA",
     "END OF GUARDED AREA|END OF PROTECTED AREA|EPA,SOS|START OF STRING,SGC|SINGLE GRAPHIC CHARACTER INTRODUCER",
     "SCI|SINGLE CHARACTER INTRODUCER,CONTROL SEQUENCE INTRODUCER|CSI,ST|STRING TERMINATOR",
     "OPERATING SYSTEM COMMAND|OSC,PM|PRIVACY MESSAGE,APC|APPLICATION PROGRAM COMMAND,NBSP|NO-BREAK SPACE",
     "INVERTED EXCLAMATION MARK,CENT SIGN,POUND SIGN,CURRENCY SIGN,YEN SIGN,BROKEN BAR,SECTION SIGN,DIAERESIS",
     "COPYRIGHT SIGN,FEMININE ORDINAL INDICATOR,LEFT-POINTING DOUBLE ANGLE QUOTATION MARK,NOT SIGN,SHY|SOFT HYPHEN",
     "REGISTERED SIGN,MACRON,DEGREE SIGN,PLUS-MINUS SIGN,SUPERSCRIPT TWO,SUPERSCRIPT THREE,ACUTE ACCENT,MICRO SIGN",
     "PILCROW SIGN,MIDDLE DOT,CEDILLA,SUPERSCRIPT ONE,MASCULINE ORDINAL INDICATOR",
     "RIGHT-POINTING DOUBLE ANGLE QUOTATION MARK,VULGAR FRACTION ONE QUARTER,VULGAR FRACTION ONE HALF",
     "VULGAR FRACTION THREE QUARTERS,INVERTED QUESTION MARK"] ++
  [("MULTIPLICATION SIGN", 0xd7), ("LATIN SMALL LETTER SHARP S", 0xdf), ("DIVISION SIGN", 0xf7),
   ("LATIN SMALL LETTER Y WITH DIAERESIS", 0xff)]

/-- Names of larger characters. -/
def wideNames : List String :=
  starting ["GREEK CAPITAL LETTER", "GREEK SMALL LETTER"]
    ["HETA,ARCHAIC SAMPI,PAMPHYLIAN DIGAMMA,ALPHA WITH TONOS,EPSILON WITH TONOS,ETA WITH TONOS,IOTA WITH TONOS",
     "OMICRON WITH TONOS,UPSILON WITH TONOS,OMEGA WITH TONOS,ALPHA,BETA,GAMMA,DELTA,EPSILON,ZETA,ETA,THETA,IOTA",
     "KAPPA,LAMDA,MU,NU,XI,OMICRON,PI,RHO,SIGMA,TAU,UPSILON,PHI,CHI,PSI,OMEGA,IOTA WITH DIALYTIKA",
     "UPSILON WITH DIALYTIKA,SHO,SAN"] ++
  starting ["LEFTWARDS", "RIGHTWARDS"]
    ["ARROW,ARROW WITH STROKE,WAVE ARROW,TWO HEADED ARROW,ARROW WITH TAIL,ARROW FROM BAR,ARROW WITH HOOK",
     "ARROW WITH LOOP,HARPOON WITH BARB UPWARDS,HARPOON WITH BARB DOWNWARDS,PAIRED ARROWS,DOUBLE ARROW WITH STROKE",
     "DOUBLE ARROW,TRIPLE ARROW,SQUIGGLE ARROW,DASHED ARROW,ARROW TO BAR,WHITE ARROW,ARROW WITH VERTICAL STROKE",
     "ARROW WITH DOUBLE VERTICAL STROKE,OPEN-HEADED ARROW"] ++
  starting ["BLACK", "WHITE"]
    ["SUN WITH RAYS,STAR,TELEPHONE,SHOGI PIECE,LEFT POINTING INDEX,RIGHT POINTING INDEX,SMILING FACE,CHESS KING",
     "CHESS QUEEN,CHESS ROOK,CHESS BISHOP,CHESS KNIGHT,CHESS PAWN,SPADE SUIT,CLUB SUIT,HEART SUIT,DIAMOND SUIT,FLAG",
     "DRAUGHTS MAN,DRAUGHTS KING,TWO-WAY LEFT WAY TRAFFIC,LEFT LANE MERGE"] ++
  starting ["DOWNWARDS", "UPWARDS"]
    ["ARROW,TWO HEADED ARROW,ARROW FROM BAR,ARROW WITH TIP LEFTWARDS,ARROW WITH TIP RIGHTWARDS",
     "HARPOON WITH BARB RIGHTWARDS,HARPOON WITH BARB LEFTWARDS,PAIRED ARROWS,DOUBLE ARROW,ARROW WITH DOUBLE STROKE",
     "DASHED ARROW,WHITE ARROW"] ++
  starting ["COPTIC CAPITAL LETTER", "COPTIC SMALL LETTER"] ["SHEI,FEI,KHEI,HORI,GANGIA,SHIMA,DEI"] ++
  starting ["GREEK"]
    ["SMALL LETTER IOTA WITH DIALYTIKA AND TONOS,SMALL LETTER UPSILON WITH DIALYTIKA AND TONOS",
     "SMALL LETTER FINAL SIGMA,SMALL LETTER ARCHAIC KOPPA,SMALL LETTER STIGMA,SMALL LETTER DIGAMMA",
     "SMALL LETTER KOPPA,SMALL LETTER SAMPI,CAPITAL LETTER YOT,NUMERAL SIGN,LOWER NUMERAL SIGN,YPOGEGRAMMENI",
     "SMALL REVERSED LUNATE SIGMA SYMBOL,SMALL DOTTED LUNATE SIGMA SYMBOL,SMALL REVERSED DOTTED LUNATE SIGMA SYMBOL",
     "QUESTION MARK,TONOS,DIALYTIKA TONOS,ANO TELEIA,CAPITAL KAI SYMBOL,BETA SYMBOL,THETA SYMBOL",
     "UPSILON WITH HOOK SYMBOL,UPSILON WITH ACUTE AND HOOK SYMBOL,UPSILON WITH DIAERESIS AND HOOK SYMBOL,PHI SYMBOL",
     "PI SYMBOL,KAI SYMBOL,LETTER ARCHAIC KOPPA,LETTER STIGMA,LETTER DIGAMMA,LETTER KOPPA,LETTER SAMPI,KAPPA SYMBOL",
     "RHO SYMBOL,LUNATE SIGMA SYMBOL,LETTER YOT,CAPITAL THETA SYMBOL,LUNATE EPSILON SYMBOL",
     "REVERSED LUNATE EPSILON SYMBOL,CAPITAL LUNATE SIGMA SYMBOL,RHO WITH STROKE SYMBOL",
     "CAPITAL REVERSED LUNATE SIGMA SYMBOL,CAPITAL DOTTED LUNATE SIGMA SYMBOL",
     "CAPITAL REVERSED DOTTED LUNATE SIGMA SYMBOL"] ++
  starting ["RECYCLING SYMBOL FOR"]
    ["TYPE-1 PLASTICS,TYPE-2 PLASTICS,TYPE-3 PLASTICS,TYPE-4 PLASTICS,TYPE-5 PLASTICS,TYPE-6 PLASTICS",
     "TYPE-7 PLASTICS,GENERIC MATERIALS"] ++
  starting ["SMILING FACE WITH"]
    ["OPEN MOUTH,OPEN MOUTH AND SMILING EYES,OPEN MOUTH AND COLD SWEAT,OPEN MOUTH AND TIGHTLY-CLOSED EYES,HALO,HORNS",
     "SMILING EYES,HEART-SHAPED EYES,SUNGLASSES"] ++
  starting ["LEFT-TO-RIGHT", "RIGHT-TO-LEFT"] ["MARK,EMBEDDING,OVERRIDE,ISOLATE"] ++
  starting ["FACE WITH"]
    ["TEARS OF JOY,COLD SWEAT,STUCK-OUT TONGUE,STUCK-OUT TONGUE AND WINKING EYE",
     "STUCK-OUT TONGUE AND TIGHTLY-CLOSED EYES,LOOK OF TRIUMPH,OPEN MOUTH,OPEN MOUTH AND COLD SWEAT,MEDICAL MASK",
     "ROLLING EYES,NO GOOD GESTURE,OK GESTURE"] ++
  starting ["NORTH", "SOUTH"] ["WEST ARROW,EAST ARROW,WEST DOUBLE ARROW,EAST DOUBLE ARROW"] ++
  starting ["LEFT", "RIGHT"] ["SINGLE QUOTATION MARK,DOUBLE QUOTATION MARK,SQUARE BRACKET WITH QUILL"] ++
  starting ["TRIGRAM FOR"] ["HEAVEN,LAKE,FIRE,THUNDER,WIND,WATER,MOUNTAIN,EARTH"] ++
  starting ["LEFT RIGHT"]
    ["ARROW,WAVE ARROW,ARROW WITH STROKE,DOUBLE ARROW WITH STROKE,DOUBLE ARROW,ARROW WITH VERTICAL STROKE",
     "ARROW WITH DOUBLE VERTICAL STROKE,OPEN-HEADED ARROW"] ++
  starting ["UPWARDS WHITE"]
    ["ARROW FROM BAR,ARROW ON PEDESTAL,ARROW ON PEDESTAL WITH HORIZONTAL BAR,ARROW ON PEDESTAL WITH VERTICAL BAR",
     "DOUBLE ARROW,DOUBLE ARROW ON PEDESTAL"] ++
  entries
    ["RIGHTWARDS ARROW WITH CORNER DOWNWARDS,RIGHTWARDS ARROW OVER LEFTWARDS ARROW",
     "RIGHTWARDS HARPOON OVER LEFTWARDS HARPOON,RIGHTWARDS WHITE ARROW FROM WALL",
     "LEFTWARDS ARROW TO BAR OVER RIGHTWARDS ARROW TO BAR,LEFTWARDS ARROW OVER RIGHTWARDS ARROW",
     "LEFTWARDS HARPOON OVER RIGHTWARDS HARPOON,BLACK LEFTWARDS BULLET,BLACK RIGHTWARDS BULLET",
     "BLACK UNIVERSAL RECYCLING SYMBOL,BLACK CIRCLE WITH WHITE DOT RIGHT,BLACK CIRCLE WITH TWO WHITE DOTS",
     "BLACK MOON LILITH,BLACK SNOWMAN,BLACK TRUCK,BLACK CROSS ON SHIELD,WHITE UP POINTING INDEX",
     "WHITE DOWN POINTING INDEX,WHITE FROWNING FACE,WHITE CIRCLE WITH DOT RIGHT,WHITE CIRCLE WITH TWO DOTS",
     "WHITE DIAMOND IN SQUARE,WHITE FLAG WITH HORIZONTAL MIDDLE BLACK STRIPE",
     "UPWARDS ARROW LEFTWARDS OF DOWNWARDS ARROW,DOWNWARDS ZIGZAG ARROW,DOWNWARDS ARROW WITH CORNER LEFTWARDS",
     "DOWNWARDS ARROW LEFTWARDS OF UPWARDS ARROW,EN QUAD,EM QUAD,EN SPACE,EM SPACE,THREE-PER-EM SPACE",
     "FOUR-PER-EM SPACE,SIX-PER-EM SPACE,FIGURE SPACE,PUNCTUATION SPACE,THIN SPACE,HAIR SPACE,ZERO WIDTH SPACE",
     "ZERO WIDTH NON-JOINER,ZERO WIDTH JOINER,HYPHEN,NON-BREAKING HYPHEN,FIGURE DASH,EN DASH,EM DASH,HORIZONTAL BAR",
     "DOUBLE VERTICAL LINE,DOUBLE LOW LINE,SINGLE LOW-9 QUOTATION MARK,SINGLE HIGH-REVERSED-9 QUOTATION MARK",
     "DOUBLE LOW-9 QUOTATION MARK,DOUBLE HIGH-REVERSED-9 QUOTATION MARK,DAGGER,DOUBLE DAGGER,BULLET",
     "TRIANGULAR BULLET,ONE DOT LEADER,TWO DOT LEADER,HORIZONTAL ELLIPSIS,HYPHENATION POINT,LINE SEPARATOR",
     "PARAGRAPH SEPARATOR,POP DIRECTIONAL FORMATTING,NARROW NO-BREAK SPACE,PER MILLE SIGN,PER TEN THOUSAND SIGN",
     "PRIME,DOUBLE PRIME,TRIPLE PRIME,REVERSED PRIME,REVERSED DOUBLE PRIME,REVERSED TRIPLE PRIME,CARET",
     "SINGLE LEFT-POINTING ANGLE QUOTATION MARK,SINGLE RIGHT-POINTING ANGLE QUOTATION MARK,REFERENCE MARK",
     "DOUBLE EXCLAMATION MARK,INTERROBANG,OVERLINE,UNDERTIE,CHARACTER TIE,CARET INSERTION POINT,ASTERISM",
     "HYPHEN BULLET,FRACTION SLASH,DOUBLE QUESTION MARK,QUESTION EXCLAMATION MARK,EXCLAMATION QUESTION MARK",
     "TIRONIAN SIGN ET,REVERSED PILCROW SIGN,LOW ASTERISK,REVERSED SEMICOLON,CLOSE UP",
     "TWO ASTERISKS ALIGNED VERTICALLY,COMMERCIAL MINUS SIGN,SWUNG DASH,INVERTED UNDERTIE,FLOWER PUNCTUATION MARK",
     "THREE DOT PUNCTUATION,QUADRUPLE PRIME,FOUR DOT PUNCTUATION,FIVE DOT PUNCTUATION,TWO DOT PUNCTUATION",
     "FOUR DOT MARK,DOTTED CROSS,TRICOLON,VERTICAL FOUR DOTS,MEDIUM MATHEMATICAL SPACE,WORD JOINER",
     "FUNCTION APPLICATION,INVISIBLE TIMES,INVISIBLE SEPARATOR,INVISIBLE PLUS,FIRST STRONG ISOLATE",
     "POP DIRECTIONAL ISOLATE,INHIBIT SYMMETRIC SWAPPING,ACTIVATE SYMMETRIC SWAPPING,INHIBIT ARABIC FORM SHAPING",
     "ACTIVATE ARABIC FORM SHAPING,NATIONAL DIGIT SHAPES,NOMINAL DIGIT SHAPES,EURO-CURRENCY SIGN,COLON SIGN",
     "CRUZEIRO SIGN,FRENCH FRANC SIGN,LIRA SIGN,MILL SIGN,NAIRA SIGN,PESETA SIGN,RUPEE SIGN,WON SIGN,NEW SHEQEL SIGN",
     "DONG SIGN,EURO SIGN,KIP SIGN,TUGRIK SIGN,DRACHMA SIGN,GERMAN PENNY SIGN,PESO SIGN,GUARANI SIGN,AUSTRAL SIGN",
     "HRYVNIA SIGN,CEDI SIGN,LIVRE TOURNOIS SIGN,SPESMILO SIGN,TENGE SIGN,INDIAN RUPEE SIGN,TURKISH LIRA SIGN",
     "NORDIC MARK SIGN,MANAT SIGN,RUBLE SIGN,LARI SIGN,BITCOIN SIGN,SOM SIGN,UP DOWN ARROW,UP DOWN ARROW WITH BASE",
     "ANTICLOCKWISE TOP SEMICIRCLE ARROW,CLOCKWISE TOP SEMICIRCLE ARROW,NORTH WEST ARROW TO LONG BAR",
     "ANTICLOCKWISE OPEN CIRCLE ARROW,CLOCKWISE OPEN CIRCLE ARROW,UP DOWN DOUBLE ARROW,NORTH WEST ARROW TO CORNER",
     "SOUTH EAST ARROW TO CORNER,UP DOWN WHITE ARROW,RIGHT ARROW WITH SMALL CIRCLE,THREE RIGHTWARDS ARROWS,CLOUD",
     "UMBRELLA,SNOWMAN,COMET,LIGHTNING,THUNDERSTORM,SUN,ASCENDING NODE,DESCENDING NODE,CONJUNCTION,OPPOSITION",
     "BALLOT BOX,BALLOT BOX WITH CHECK,BALLOT BOX WITH X,SALTIRE,UMBRELLA WITH RAIN DROPS,HOT BEVERAGE,SHAMROCK",
     "REVERSED ROTATED FLORAL HEART BULLET,SKULL AND CROSSBONES,CAUTION SIGN,RADIOACTIVE SIGN,BIOHAZARD SIGN",
     "CADUCEUS,ANKH,ORTHODOX CROSS,CHI RHO,CROSS OF LORRAINE,CROSS OF JERUSALEM,STAR AND CRESCENT,FARSI SYMBOL",
     "ADI SHAKTI,HAMMER AND SICKLE,PEACE SYMBOL,YIN YANG,WHEEL OF DHARMA,FIRST QUARTER MOON,LAST QUARTER MOON",
     "MERCURY,FEMALE SIGN,EARTH,MALE SIGN,JUPITER,SATURN,URANUS,NEPTUNE,PLUTO,ARIES,TAURUS,GEMINI,CANCER,LEO,VIRGO",
     "LIBRA,SCORPIUS,SAGITTARIUS,CAPRICORN,AQUARIUS,PISCES,HOT SPRINGS,QUARTER NOTE,EIGHTH NOTE,BEAMED EIGHTH NOTES",
     "BEAMED SIXTEENTH NOTES,MUSIC FLAT SIGN,MUSIC NATURAL SIGN,MUSIC SHARP SIGN,WEST SYRIAC CROSS,EAST SYRIAC CROSS",
     "UNIVERSAL RECYCLING SYMBOL,RECYCLED PAPER SYMBOL,PARTIALLY-RECYCLED PAPER SYMBOL,PERMANENT PAPER SIGN",
     "WHEELCHAIR SYMBOL,DIE FACE-1,DIE FACE-2,DIE FACE-3,DIE FACE-4,DIE FACE-5,DIE FACE-6,MONOGRAM FOR YANG",
     "MONOGRAM FOR YIN,DIGRAM FOR GREATER YANG,DIGRAM FOR LESSER YIN,DIGRAM FOR LESSER YANG,DIGRAM FOR GREATER YIN",
     "HAMMER AND PICK,ANCHOR,CROSSED SWORDS,STAFF OF AESCULAPIUS,SCALES,ALEMBIC,FLOWER,GEAR,STAFF OF HERMES",
     "ATOM SYMBOL,FLEUR-DE-LIS,OUTLINED WHITE STAR,THREE LINES CONVERGING RIGHT,THREE LINES CONVERGING LEFT",
     "WARNING SIGN,HIGH VOLTAGE SIGN,DOUBLED FEMALE SIGN,DOUBLED MALE SIGN,INTERLOCKED FEMALE AND MALE SIGN",
     "MALE AND FEMALE SIGN,MALE WITH STROKE SIGN,MALE WITH STROKE AND MALE AND FEMALE SIGN",
     "VERTICAL MALE WITH STROKE SIGN,HORIZONTAL MALE WITH STROKE SIGN,MEDIUM WHITE CIRCLE,MEDIUM BLACK CIRCLE",
     "MEDIUM SMALL WHITE CIRCLE,MARRIAGE SYMBOL,DIVORCE SYMBOL,UNMARRIED PARTNERSHIP SYMBOL,COFFIN,FUNERAL URN",
     "NEUTER,CERES,PALLAS,JUNO,VESTA,CHIRON,SEXTILE,SEMISEXTILE,QUINCUNX,SESQUIQUADRATE,SOCCER BALL,BASEBALL",
     "SQUARED KEY,SNOWMAN WITHOUT SNOW,SUN BEHIND CLOUD,RAIN,THUNDER CLOUD AND RAIN,TURNED WHITE SHOGI PIECE",
     "TURNED BLACK SHOGI PIECE,CROSSING LANES,DISABLED CAR,OPHIUCHUS,PICK,CAR SLIDING,HELMET WITH WHITE CROSS",
     "CIRCLED CROSSING LANES,CHAINS,NO ENTRY,ALTERNATE ONE-WAY LEFT WAY TRAFFIC,DRIVE SLOW SIGN",
     "HEAVY WHITE DOWN-POINTING TRIANGLE,LEFT CLOSED ENTRY,SQUARED SALTIRE",
     "FALLING DIAGONAL IN WHITE CIRCLE IN BLACK SQUARE,RESTRICTED LEFT ENTRY-1,RESTRICTED LEFT ENTRY-2",
     "ASTRONOMICAL SYMBOL FOR URANUS,HEAVY CIRCLE WITH STROKE AND TWO DOTS ABOVE,PENTAGRAM",
     "RIGHT-HANDED INTERLACED PENTAGRAM,LEFT-HANDED INTERLACED PENTAGRAM,INVERTED PENTAGRAM,SHINTO SHRINE,CHURCH",
     "CASTLE,HISTORIC SITE,GEAR WITHOUT HUB,GEAR WITH HANDLES,MAP SYMBOL FOR LIGHTHOUSE,MOUNTAIN,UMBRELLA ON GROUND",
     "FOUNTAIN,FLAG IN HOLE,FERRY,SAILBOAT,SQUARE FOUR CORNERS,SKIER,ICE SKATE,PERSON WITH BALL,TENT",
     "JAPANESE BANK SYMBOL,HEADSTONE GRAVEYARD SYMBOL,FUEL PUMP,CUP ON BLACK SQUARE,GRINNING FACE",
     "GRINNING FACE WITH SMILING EYES,WINKING FACE,FACE SAVOURING DELICIOUS FOOD,RELIEVED FACE,SMIRKING FACE",
     "NEUTRAL FACE,EXPRESSIONLESS FACE,UNAMUSED FACE,PENSIVE FACE,CONFUSED FACE,CONFOUNDED FACE,KISSING FACE",
     "FACE THROWING A KISS,KISSING FACE WITH SMILING EYES,KISSING FACE WITH CLOSED EYES,DISAPPOINTED FACE",
     "WORRIED FACE,ANGRY FACE,POUTING FACE,CRYING FACE,PERSEVERING FACE,DISAPPOINTED BUT RELIEVED FACE",
     "FROWNING FACE WITH OPEN MOUTH,ANGUISHED FACE,FEARFUL FACE,WEARY FACE,SLEEPY FACE,TIRED FACE,GRIMACING FACE",
     "LOUDLY CRYING FACE,HUSHED FACE,FACE SCREAMING IN FEAR,ASTONISHED FACE,FLUSHED FACE,SLEEPING FACE,DIZZY FACE",
     "FACE WITHOUT MOUTH,GRINNING CAT FACE WITH SMILING EYES,CAT FACE WITH TEARS OF JOY",
     "SMILING CAT FACE WITH OPEN MOUTH,SMILING CAT FACE WITH HEART-SHAPED EYES,CAT FACE WITH WRY SMILE",
     "KISSING CAT FACE WITH CLOSED EYES,POUTING CAT FACE,CRYING CAT FACE,WEARY CAT FACE,SLIGHTLY FROWNING FACE",
     "SLIGHTLY SMILING FACE,UPSIDE-DOWN FACE,PERSON BOWING DEEPLY,SEE-NO-EVIL MONKEY,HEAR-NO-EVIL MONKEY",
     "SPEAK-NO-EVIL MONKEY,HAPPY PERSON RAISING ONE HAND,PERSON RAISING BOTH HANDS IN CELEBRATION,PERSON FROWNING",
     "PERSON WITH POUTING FACE,PERSON WITH FOLDED HANDS"]

end Missive.Text
