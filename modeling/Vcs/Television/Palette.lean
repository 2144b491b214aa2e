/-!
# Palettes

The colours that the two television standards show for a colour register.  A register holds sixteen hues
in its high nibble and eight brightnesses in the next three bits.  Its lowest bit is unused by the chip and
marks a pixel that has lost its colour, which is shown black.
-/

namespace Vcs

/-- Colours by hue and brightness, as `0xRRGGBB`. -/
abbrev Palette := Vector (Vector UInt32 8) 16

namespace Palette

def ntsc : Palette :=
  #v[
    #v[0x000000, 0x4A4A4A, 0x6F6F6F, 0x8E8E8E, 0xAAAAAA, 0xC0C0C0, 0xD6D6D6, 0xECECEC],
    #v[0x484800, 0x69690F, 0x86861D, 0xA2A22A, 0xBBBB35, 0xD2D240, 0xE8E84A, 0xFCFC54],
    #v[0x7C2C00, 0x904811, 0xA26221, 0xB47A30, 0xC3903D, 0xD2A44A, 0xDFB755, 0xECC860],
    #v[0x901C00, 0xA33915, 0xB55328, 0xC66C3A, 0xD5824A, 0xE39759, 0xF0AA67, 0xFCBC74],
    #v[0x940000, 0xA71A1A, 0xB83232, 0xC84848, 0xD65C5C, 0xE46F6F, 0xF08080, 0xFC9090],
    #v[0x840064, 0x97197A, 0xA8308F, 0xB846A2, 0xC659B3, 0xD46CC3, 0xE07CD2, 0xEC8CE0],
    #v[0x500084, 0x68199A, 0x7D30AD, 0x9246C0, 0xA459D0, 0xB56CE0, 0xC57CEE, 0xD48CFC],
    #v[0x140090, 0x331AA3, 0x4E32B5, 0x6848C6, 0x7F5CD5, 0x956FE3, 0xA980F0, 0xBC90FC],
    #v[0x000094, 0x181AA7, 0x2D32B8, 0x4248C8, 0x545CD6, 0x656FE4, 0x7580F0, 0x8490FC],
    #v[0x001C88, 0x183B9D, 0x2D57B0, 0x4272C2, 0x548AD2, 0x65A0E1, 0x75B5EF, 0x84C8FC],
    #v[0x003064, 0x185080, 0x2D6D98, 0x4288B0, 0x54A0C5, 0x65B7D9, 0x75CCEB, 0x84E0FC],
    #v[0x004030, 0x18624E, 0x2D8169, 0x429E82, 0x54B899, 0x65D1AE, 0x75E7C2, 0x84FCD4],
    #v[0x004400, 0x1A661A, 0x328432, 0x48A048, 0x5CBA5C, 0x6FD26F, 0x80E880, 0x90FC90],
    #v[0x143C00, 0x355F18, 0x527E2D, 0x6E9C42, 0x87B754, 0x9ED065, 0xB4E775, 0xC8FC84],
    #v[0x303800, 0x505916, 0x6D762B, 0x88923E, 0xA0AB4F, 0xB7C25F, 0xCCD86E, 0xE0EC7C],
    #v[0x482C00, 0x694D14, 0x866A26, 0xA28638, 0xBB9F47, 0xD2B656, 0xE8CC63, 0xFCE070]]

def pal : Palette :=
  #v[
    #v[0x000000, 0x2B2B2B, 0x525252, 0x767676, 0x979797, 0xB6B6B6, 0xD2D2D2, 0xECECEC],
    #v[0x000000, 0x2B2B2B, 0x525252, 0x767676, 0x979797, 0xB6B6B6, 0xD2D2D2, 0xECECEC],
    #v[0x805800, 0x96711A, 0xAB8732, 0xBE9C48, 0xCFAF5C, 0xDFC06F, 0xEED180, 0xFCE090],
    #v[0x445C00, 0x5E791A, 0x769332, 0x8CAC48, 0xA0C25C, 0xB3D76F, 0xC4EA80, 0xD4FC90],
    #v[0x703400, 0x89511A, 0xA06B32, 0xB68448, 0xC99A5C, 0xDCAF6F, 0xECC280, 0xFCD490],
    #v[0x006414, 0x1A8035, 0x329852, 0x48B06E, 0x5CC587, 0x6FD99E, 0x80EBB4, 0x90FCC8],
    #v[0x700014, 0x891A35, 0xA03252, 0xB6486E, 0xC95C87, 0xDC6F9E, 0xEC80B4, 0xFC90C8],
    #v[0x005C5C, 0x1A7676, 0x328E8E, 0x48A4A4, 0x5CB8B8, 0x6FCBCB, 0x80DCDC, 0x90ECEC],
    #v[0x70005C, 0x841A74, 0x963289, 0xA8489E, 0xB75CB0, 0xC66FC1, 0xD380D1, 0xE090E0],
    #v[0x003C70, 0x195A89, 0x2F75A0, 0x448EB6, 0x57A5C9, 0x68BADC, 0x79CEEC, 0x88E0FC],
    #v[0x580070, 0x6E1A89, 0x8332A0, 0x9648B6, 0xA75CC9, 0xB76FDC, 0xC680EC, 0xD490FC],
    #v[0x002070, 0x193F89, 0x2F5AA0, 0x4474B6, 0x578BC9, 0x68A1DC, 0x79B5EC, 0x88C8FC],
    #v[0x340080, 0x4A1A96, 0x5F32AB, 0x7248BE, 0x835CCF, 0x936FDF, 0xA280EE, 0xB090FC],
    #v[0x000088, 0x1A1A9D, 0x3232B0, 0x4848C2, 0x5C5CD2, 0x6F6FE1, 0x8080EF, 0x9090FC],
    #v[0x000000, 0x2B2B2B, 0x525252, 0x767676, 0x979797, 0xB6B6B6, 0xD2D2D2, 0xECECEC],
    #v[0x000000, 0x2B2B2B, 0x525252, 0x767676, 0x979797, 0xB6B6B6, 0xD2D2D2, 0xECECEC]]

theorem hue_lt (color : UInt8) : color.toNat / 16 < 16 := by
  have := color.toNat_lt
  omega

/-- The colour of a register value. -/
@[inline]
def rgb (palette : Palette) (color : UInt8) : UInt32 :=
  if color &&& 0x01 != 0 then 0
  else
    have hue := hue_lt color
    palette[color.toNat / 16][color.toNat / 2 % 8]

end Palette

end Vcs
