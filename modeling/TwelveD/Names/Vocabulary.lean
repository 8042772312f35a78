/-!
# The words of 12dPL

The keywords, the built-in types and the functions that every program can call.
-/

namespace TwelveD

/-- A function of the library that every program can call. -/
structure LibraryFunction where
  name : String
  /-- The function's heading: type, name and parameters. -/
  signature : String
  /-- What the function does. -/
  summary : String
  deriving DecidableEq, Repr

namespace Vocabulary

/-- The keywords. -/
def keywords : List String :=
  ["for", "do", "while", "if", "else", "goto", "switch", "default", "case", "return", "include",
    "define"]

/-- The built-in types. -/
def types : List String :=
  ["Angle_Box", "Apply_Function", "Apply_Many_Function", "Arc", "Attribute", "Attribute_Blob",
    "Attributes", "Attributes_Box", "Billboard_Box", "Bitmap_Fill_Box", "Bitmap_List_Box",
    "Button", "Chainage_Box", "Choice_Box", "Colour_Box", "Colour_Message_Box", "Connection",
    "Curve", "Database_Result", "Date_Time_Box", "Delete_Query", "Directory_Box",
    "Drainage_Network", "Draw_Box", "Dynamic_Element", "Dynamic_Integer", "Dynamic_Real",
    "Dynamic_Text", "Element", "Equality_Info", "Equality_Label", "File", "File_Box", "Function",
    "Function_Box", "Function_Property_Collection", "Graph_Box", "GridCtrl_Box", "Guid",
    "Horizontal_Group", "HyperLink_Box", "Input_Box", "Insert_Query", "Integer", "Integer64",
    "Integer_Box", "Integer_Set", "Justify_Box", "Kerb_Return_Function", "Line", "Linestyle_Box",
    "List", "ListCtrl_Box", "List_Box", "Log_Box", "Log_Line", "Macro_Function",
    "Manual_Condition", "Manual_Query", "Map_File", "Map_File_Box", "Matrix3", "Matrix4", "Menu",
    "Message_Box", "Model", "Model_Box", "Name_Box", "Named_Tick_Box", "Names", "New_Select_Box",
    "New_XYZ_Box", "Overlay_Widget", "Panel", "Parabola", "Parameter_Collection",
    "Plot_Parameter_File", "Plotter_Box", "Point", "Polygon_Box", "Process_Handle",
    "Query_Condition", "Real_Box", "Real", "Real_Set", "Report_Box", "SDR_Attribute",
    "Screen_Text", "Segment", "Select_Box", "Select_Boxes", "Select_Button", "Select_Query",
    "Selection", "Sheet_Panel", "Sheet_Size_Box", "Slider_Box", "Source_Box", "Spiral", "String",
    "Symbol_Box", "Tab_Box", "Target_Box", "Template_Box", "Text", "Text_Edit_Box", "Text_Set",
    "Text_Style_Box", "Text_Units_Box", "Textstyle_Data", "Textstyle_Data_Box", "Texture_Box",
    "Tick_Box", "Time_Zone_Box", "Time_Zone_Box_Box", "Tin", "Tin_Box", "Transaction", "Tree_Box",
    "Tree_Page", "Uid", "Undo", "Undo_List", "Update_Query", "Vector2", "Vector3", "Vector4",
    "Vertical_Group", "View", "View_Box", "Widget", "Widget_Pages", "XML_Document", "XML_Node",
    "XYZ_Box", "void"]

/-- The library functions. -/
def library : List LibraryFunction :=
  [⟨"Print", "void Print(Text msg)",
      "Print the Text msg to the Output Window."⟩,
    ⟨"Clear_console", "void Clear_console()",
      "Clear the Output Window."⟩,
    ⟨"Get_number_of_command_arguments", "Integer Get_number_of_command_arguments()",
      "Return the number of arguments the macro was run with."⟩,
    ⟨"Get_command_argument", "Integer Get_command_argument(Integer i, Text &argument)",
      "Get the i'th command line argument and return it in argument. A function return " ++
        "value of zero indicates the argument was successfully returned."⟩,
    ⟨"Exit", "Integer Exit(Integer code)",
      "Terminate the macro with the exit status code."⟩,
    ⟨"Text_length", "Integer Text_length(Text text)",
      "Return the number of characters in text."⟩,
    ⟨"To_text", "Text To_text(Integer value)",
      "Convert value to its Text representation."⟩]

/-- The library function with a given name. -/
def libraryFunction? (name : String) : Option LibraryFunction :=
  library.find? (·.name == name)

end Vocabulary

end TwelveD
