/-!
# Physical keys

* `namedKeys`        the codes of the keys that have a name of several letters;
* `codeOf? name`     the code of a key: a letter or digit is its own, others are in the table;
* `shownNames`       how keys are shown;
* `shownName code`   how the key with a code is shown: by its name, or by the code if it has none.

Some keys have two names.
-/

namespace ChipEight.Keyboard

def namedKeys : List (String × Int) :=
  [("AC_BACK", 1073742094), ("AMPERSAND", 38), ("ASTERISK", 42), ("AT", 64), ("BACKQUOTE", 96),
   ("BACKSLASH", 92), ("BACKSPACE", 8), ("BREAK", 1073741896), ("CAPSLOCK", 1073741881),
   ("CARET", 94), ("CLEAR", 1073741980), ("COLON", 58), ("COMMA", 44),
   ("CURRENCYSUBUNIT", 1073742005), ("CURRENCYUNIT", 1073742004), ("DELETE", 127), ("DOLLAR", 36),
   ("DOWN", 1073741905), ("END", 1073741901), ("EQUALS", 61), ("ESCAPE", 27),
   ("EURO", 1073742004), ("EXCLAIM", 33), ("F1", 1073741882), ("F10", 1073741891),
   ("F11", 1073741892), ("F12", 1073741893), ("F13", 1073741928), ("F14", 1073741929),
   ("F15", 1073741930), ("F2", 1073741883), ("F3", 1073741884), ("F4", 1073741885),
   ("F5", 1073741886), ("F6", 1073741887), ("F7", 1073741888), ("F8", 1073741889),
   ("F9", 1073741890), ("GREATER", 62), ("HASH", 35), ("HELP", 1073741941), ("HOME", 1073741898),
   ("INSERT", 1073741897), ("KP0", 1073741922), ("KP1", 1073741913), ("KP2", 1073741914),
   ("KP3", 1073741915), ("KP4", 1073741916), ("KP5", 1073741917), ("KP6", 1073741918),
   ("KP7", 1073741919), ("KP8", 1073741920), ("KP9", 1073741921), ("KP_0", 1073741922),
   ("KP_1", 1073741913), ("KP_2", 1073741914), ("KP_3", 1073741915), ("KP_4", 1073741916),
   ("KP_5", 1073741917), ("KP_6", 1073741918), ("KP_7", 1073741919), ("KP_8", 1073741920),
   ("KP_9", 1073741921), ("KP_DIVIDE", 1073741908), ("KP_ENTER", 1073741912),
   ("KP_EQUALS", 1073741927), ("KP_MINUS", 1073741910), ("KP_MULTIPLY", 1073741909),
   ("KP_PERIOD", 1073741923), ("KP_PLUS", 1073741911), ("LALT", 1073742050),
   ("LCTRL", 1073742048), ("LEFT", 1073741904), ("LEFTBRACKET", 91), ("LEFTPAREN", 40),
   ("LESS", 60), ("LGUI", 1073742051), ("LMETA", 1073742051), ("LSHIFT", 1073742049),
   ("LSUPER", 1073742051), ("MENU", 1073741942), ("MINUS", 45), ("MODE", 1073742081),
   ("NUMLOCK", 1073741907), ("NUMLOCKCLEAR", 1073741907), ("PAGEDOWN", 1073741902),
   ("PAGEUP", 1073741899), ("PAUSE", 1073741896), ("PERCENT", 37), ("PERIOD", 46), ("PLUS", 43),
   ("POWER", 1073741926), ("PRINT", 1073741894), ("PRINTSCREEN", 1073741894), ("QUESTION", 63),
   ("QUOTE", 39), ("QUOTEDBL", 34), ("RALT", 1073742054), ("RCTRL", 1073742052), ("RETURN", 13),
   ("RGUI", 1073742055), ("RIGHT", 1073741903), ("RIGHTBRACKET", 93), ("RIGHTPAREN", 41),
   ("RMETA", 1073742055), ("RSHIFT", 1073742053), ("RSUPER", 1073742055),
   ("SCROLLLOCK", 1073741895), ("SCROLLOCK", 1073741895), ("SEMICOLON", 59), ("SLASH", 47),
   ("SPACE", 32), ("SYSREQ", 1073741978), ("TAB", 9), ("UNDERSCORE", 95), ("UNKNOWN", 0),
   ("UP", 1073741906)]

def shownNames : List (Int × String) :=
  [(8, "backspace"), (9, "tab"), (13, "return"), (27, "escape"), (32, "space"), (33, "!"),
   (34, "\""), (35, "#"), (36, "$"), (37, "%"), (38, "&"), (39, "'"), (40, "("), (41, ")"),
   (42, "*"), (43, "+"), (44, ","), (45, "-"), (46, "."), (47, "/"), (48, "0"), (49, "1"),
   (50, "2"), (51, "3"), (52, "4"), (53, "5"), (54, "6"), (55, "7"), (56, "8"), (57, "9"),
   (58, ":"), (59, ";"), (60, "<"), (61, "="), (62, ">"), (63, "?"), (64, "@"), (91, "["),
   (92, "\\"), (93, "]"), (94, "^"), (95, "_"), (96, "`"), (97, "a"), (98, "b"), (99, "c"),
   (100, "d"), (101, "e"), (102, "f"), (103, "g"), (104, "h"), (105, "i"), (106, "j"), (107, "k"),
   (108, "l"), (109, "m"), (110, "n"), (111, "o"), (112, "p"), (113, "q"), (114, "r"), (115, "s"),
   (116, "t"), (117, "u"), (118, "v"), (119, "w"), (120, "x"), (121, "y"), (122, "z"),
   (127, "delete"), (1073741881, "caps lock"), (1073741882, "f1"), (1073741883, "f2"),
   (1073741884, "f3"), (1073741885, "f4"), (1073741886, "f5"), (1073741887, "f6"),
   (1073741888, "f7"), (1073741889, "f8"), (1073741890, "f9"), (1073741891, "f10"),
   (1073741892, "f11"), (1073741893, "f12"), (1073741894, "print screen"),
   (1073741895, "scroll lock"), (1073741896, "break"), (1073741897, "insert"),
   (1073741898, "home"), (1073741899, "page up"), (1073741901, "end"), (1073741902, "page down"),
   (1073741903, "right"), (1073741904, "left"), (1073741905, "down"), (1073741906, "up"),
   (1073741907, "numlock"), (1073741908, "[/]"), (1073741909, "[*]"), (1073741910, "[-]"),
   (1073741911, "[+]"), (1073741912, "enter"), (1073741913, "[1]"), (1073741914, "[2]"),
   (1073741915, "[3]"), (1073741916, "[4]"), (1073741917, "[5]"), (1073741918, "[6]"),
   (1073741919, "[7]"), (1073741920, "[8]"), (1073741921, "[9]"), (1073741922, "[0]"),
   (1073741923, "[.]"), (1073741926, "power"), (1073741927, "equals"), (1073741928, "f13"),
   (1073741929, "f14"), (1073741930, "f15"), (1073741941, "help"), (1073741942, "menu"),
   (1073741978, "sys req"), (1073741980, "clear"), (1073742004, "euro"),
   (1073742005, "CurrencySubUnit"), (1073742048, "left ctrl"), (1073742049, "left shift"),
   (1073742050, "left alt"), (1073742051, "left meta"), (1073742052, "right ctrl"),
   (1073742053, "right shift"), (1073742054, "right alt"), (1073742055, "right meta"),
   (1073742081, "alt gr"), (1073742094, "AC Back")]

def isPlain (c : Char) : Bool := c.isLower || c.isDigit

def codeOf? (name : String) : Option Int :=
  match name.toList with
  | [c] => if isPlain c then some c.toNat else none
  | _ => namedKeys.lookup name

def shownName (code : Int) : String := (shownNames.lookup code).getD (toString code)

end ChipEight.Keyboard
