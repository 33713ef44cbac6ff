/-!
# Letters under accents

Unicode gives many pairs of a letter and a combining mark a character of their own. A letter
without one is followed by the mark.
-/

namespace DocCite.Text

/-- For each combining mark, the letters it forms a character with, and that character. -/
def composites : List (Nat × List (Nat × Nat)) :=
  [(768,
     [(65, 192), (69, 200), (73, 204), (78, 504), (79, 210), (85, 217), (87, 7808), (89, 7922),
      (97, 224), (101, 232), (105, 236), (110, 505), (111, 242), (117, 249), (119, 7809),
      (121, 7923), (168, 8173), (194, 7846), (202, 7872), (212, 7890), (220, 475), (226, 7847),
      (234, 7873), (244, 7891), (252, 476), (258, 7856), (259, 7857), (274, 7700), (275, 7701),
      (332, 7760), (333, 7761), (416, 7900), (417, 7901), (431, 7914), (432, 7915), (913, 8122),
      (917, 8136), (919, 8138), (921, 8154), (927, 8184), (933, 8170), (937, 8186), (945, 8048),
      (949, 8050), (951, 8052), (953, 8054), (959, 8056), (965, 8058), (969, 8060), (970, 8146),
      (971, 8162), (1045, 1024), (1048, 1037), (1077, 1104), (1080, 1117), (7936, 7938),
      (7937, 7939), (7944, 7946), (7945, 7947), (7952, 7954), (7953, 7955), (7960, 7962),
      (7961, 7963), (7968, 7970), (7969, 7971), (7976, 7978), (7977, 7979), (7984, 7986),
      (7985, 7987), (7992, 7994), (7993, 7995), (8000, 8002), (8001, 8003), (8008, 8010),
      (8009, 8011), (8016, 8018), (8017, 8019), (8025, 8027), (8032, 8034), (8033, 8035),
      (8040, 8042), (8041, 8043), (8127, 8141), (8190, 8157)]),
   (769,
     [(65, 193), (67, 262), (69, 201), (71, 500), (73, 205), (75, 7728), (76, 313), (77, 7742),
      (78, 323), (79, 211), (80, 7764), (82, 340), (83, 346), (85, 218), (87, 7810), (89, 221),
      (90, 377), (97, 225), (99, 263), (101, 233), (103, 501), (105, 237), (107, 7729),
      (108, 314), (109, 7743), (110, 324), (111, 243), (112, 7765), (114, 341), (115, 347),
      (117, 250), (119, 7811), (121, 253), (122, 378), (168, 901), (194, 7844), (197, 506),
      (198, 508), (199, 7688), (202, 7870), (207, 7726), (212, 7888), (213, 7756), (216, 510),
      (220, 471), (226, 7845), (229, 507), (230, 509), (231, 7689), (234, 7871), (239, 7727),
      (244, 7889), (245, 7757), (248, 511), (252, 472), (258, 7854), (259, 7855), (274, 7702),
      (275, 7703), (332, 7762), (333, 7763), (360, 7800), (361, 7801), (416, 7898), (417, 7899),
      (431, 7912), (432, 7913), (913, 902), (917, 904), (919, 905), (921, 906), (927, 908),
      (933, 910), (937, 911), (945, 940), (949, 941), (951, 942), (953, 943), (959, 972),
      (965, 973), (969, 974), (970, 912), (971, 944), (978, 979), (1043, 1027), (1050, 1036),
      (1075, 1107), (1082, 1116), (7936, 7940), (7937, 7941), (7944, 7948), (7945, 7949),
      (7952, 7956), (7953, 7957), (7960, 7964), (7961, 7965), (7968, 7972), (7969, 7973),
      (7976, 7980), (7977, 7981), (7984, 7988), (7985, 7989), (7992, 7996), (7993, 7997),
      (8000, 8004), (8001, 8005), (8008, 8012), (8009, 8013), (8016, 8020), (8017, 8021),
      (8025, 8029), (8032, 8036), (8033, 8037), (8040, 8044), (8041, 8045), (8127, 8142),
      (8190, 8158)]),
   (770,
     [(65, 194), (67, 264), (69, 202), (71, 284), (72, 292), (73, 206), (74, 308), (79, 212),
      (83, 348), (85, 219), (87, 372), (89, 374), (90, 7824), (97, 226), (99, 265), (101, 234),
      (103, 285), (104, 293), (105, 238), (106, 309), (111, 244), (115, 349), (117, 251),
      (119, 373), (121, 375), (122, 7825), (7840, 7852), (7841, 7853), (7864, 7878), (7865, 7879),
      (7884, 7896), (7885, 7897)]),
   (771,
     [(65, 195), (69, 7868), (73, 296), (78, 209), (79, 213), (85, 360), (86, 7804), (89, 7928),
      (97, 227), (101, 7869), (105, 297), (110, 241), (111, 245), (117, 361), (118, 7805),
      (121, 7929), (194, 7850), (202, 7876), (212, 7894), (226, 7851), (234, 7877), (244, 7895),
      (258, 7860), (259, 7861), (416, 7904), (417, 7905), (431, 7918), (432, 7919)]),
   (772,
     [(65, 256), (69, 274), (71, 7712), (73, 298), (79, 332), (85, 362), (89, 562), (97, 257),
      (101, 275), (103, 7713), (105, 299), (111, 333), (117, 363), (121, 563), (196, 478),
      (198, 482), (213, 556), (214, 554), (220, 469), (228, 479), (230, 483), (245, 557),
      (246, 555), (252, 470), (490, 492), (491, 493), (550, 480), (551, 481), (558, 560),
      (559, 561), (913, 8121), (921, 8153), (933, 8169), (945, 8113), (953, 8145), (965, 8161),
      (1048, 1250), (1059, 1262), (1080, 1251), (1091, 1263), (7734, 7736), (7735, 7737),
      (7770, 7772), (7771, 7773)]),
   (774,
     [(65, 258), (69, 276), (71, 286), (73, 300), (79, 334), (85, 364), (97, 259), (101, 277),
      (103, 287), (105, 301), (111, 335), (117, 365), (552, 7708), (553, 7709), (913, 8120),
      (921, 8152), (933, 8168), (945, 8112), (953, 8144), (965, 8160), (1040, 1232), (1045, 1238),
      (1046, 1217), (1048, 1049), (1059, 1038), (1072, 1233), (1077, 1239), (1078, 1218),
      (1080, 1081), (1091, 1118), (7840, 7862), (7841, 7863)]),
   (775,
     [(65, 550), (66, 7682), (67, 266), (68, 7690), (69, 278), (70, 7710), (71, 288), (72, 7714),
      (73, 304), (77, 7744), (78, 7748), (79, 558), (80, 7766), (82, 7768), (83, 7776),
      (84, 7786), (87, 7814), (88, 7818), (89, 7822), (90, 379), (97, 551), (98, 7683), (99, 267),
      (100, 7691), (101, 279), (102, 7711), (103, 289), (104, 7715), (109, 7745), (110, 7749),
      (111, 559), (112, 7767), (114, 7769), (115, 7777), (116, 7787), (119, 7815), (120, 7819),
      (121, 7823), (122, 380), (346, 7780), (347, 7781), (352, 7782), (353, 7783), (383, 7835),
      (7778, 7784), (7779, 7785), (67026, 67017), (67034, 67044)]),
   (776,
     [(65, 196), (69, 203), (72, 7718), (73, 207), (79, 214), (85, 220), (87, 7812), (88, 7820),
      (89, 376), (97, 228), (101, 235), (104, 7719), (105, 239), (111, 246), (116, 7831),
      (117, 252), (119, 7813), (120, 7821), (121, 255), (213, 7758), (245, 7759), (362, 7802),
      (363, 7803), (921, 938), (933, 939), (953, 970), (965, 971), (978, 980), (1030, 1031),
      (1040, 1234), (1045, 1025), (1046, 1244), (1047, 1246), (1048, 1252), (1054, 1254),
      (1059, 1264), (1063, 1268), (1067, 1272), (1069, 1260), (1072, 1235), (1077, 1105),
      (1078, 1245), (1079, 1247), (1080, 1253), (1086, 1255), (1091, 1265), (1095, 1269),
      (1099, 1273), (1101, 1261), (1110, 1111), (1240, 1242), (1241, 1243), (1256, 1258),
      (1257, 1259)]),
   (778,
     [(65, 197), (85, 366), (97, 229), (117, 367), (119, 7832), (121, 7833)]),
   (779,
     [(79, 336), (85, 368), (111, 337), (117, 369), (1059, 1266), (1091, 1267)]),
   (780,
     [(65, 461), (67, 268), (68, 270), (69, 282), (71, 486), (72, 542), (73, 463), (75, 488),
      (76, 317), (78, 327), (79, 465), (82, 344), (83, 352), (84, 356), (85, 467), (90, 381),
      (97, 462), (99, 269), (100, 271), (101, 283), (103, 487), (104, 543), (105, 464),
      (106, 496), (107, 489), (108, 318), (110, 328), (111, 466), (114, 345), (115, 353),
      (116, 357), (117, 468), (122, 382), (220, 473), (252, 474), (439, 494), (658, 495)]),
   (803,
     [(65, 7840), (66, 7684), (68, 7692), (69, 7864), (72, 7716), (73, 7882), (75, 7730),
      (76, 7734), (77, 7746), (78, 7750), (79, 7884), (82, 7770), (83, 7778), (84, 7788),
      (85, 7908), (86, 7806), (87, 7816), (89, 7924), (90, 7826), (97, 7841), (98, 7685),
      (100, 7693), (101, 7865), (104, 7717), (105, 7883), (107, 7731), (108, 7735), (109, 7747),
      (110, 7751), (111, 7885), (114, 7771), (115, 7779), (116, 7789), (117, 7909), (118, 7807),
      (119, 7817), (121, 7925), (122, 7827), (416, 7906), (417, 7907), (431, 7920), (432, 7921)]),
   (807,
     [(67, 199), (68, 7696), (69, 552), (71, 290), (72, 7720), (75, 310), (76, 315), (78, 325),
      (82, 342), (83, 350), (84, 354), (99, 231), (100, 7697), (101, 553), (103, 291),
      (104, 7721), (107, 311), (108, 316), (110, 326), (114, 343), (115, 351), (116, 355)]),
   (808,
     [(65, 260), (69, 280), (73, 302), (79, 490), (85, 370), (97, 261), (101, 281), (105, 303),
      (111, 491), (117, 371)])]

/-- The character for a letter under a combining mark, where there is one. -/
def composite? (letter mark : Char) : Option Char :=
  match composites.lookup mark.toNat with
  | none => none
  | some pairs => (pairs.lookup letter.toNat).map Char.ofNat

/-- A text whose last character is put under a combining mark. -/
def combineLast (s : List Char) (mark : Char) : List Char :=
  match s.getLast? with
  | none => [mark]
  | some letter =>
    match composite? letter mark with
    | some c => s.dropLast ++ [c]
    | none => s ++ [mark]

end DocCite.Text
