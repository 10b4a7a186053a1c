import Karabiner.Types

/-!
# The momentary switches among HID usages

`share/types/momentary_switch_event.hpp` and `momentary_switch_event_details`: which HID usages are
keys, buttons and d-pad directions.  Keyboard usages are a range and every usage of the button page
is a button; on the other pages the usages are listed together with their names.
-/

namespace Karabiner

namespace MomentarySwitchEvent

/-- `consumer_key_code::name_value_pairs`. -/
def consumerKeyCodeNameValuePairs : List (String × ℤ) := [
  ("dictation", 0x00cf), ("microphone", 0x0004), ("power", 0x0030), ("menu", 0x0040),
  ("menu_pick", 0x0041), ("menu_up", 0x0042), ("menu_down", 0x0043), ("menu_left", 0x0044),
  ("menu_right", 0x0045), ("menu_escape", 0x0046), ("menu_value_increase", 0x0047),
  ("menu_value_decrease", 0x0048), ("data_on_screen", 0x0060), ("closed_caption", 0x0061),
  ("closed_caption_select", 0x0062), ("vcr_or_tv", 0x0063), ("broadcast_mode", 0x0064),
  ("snapshot", 0x0065), ("still", 0x0066), ("picture_in_picture_toggle", 0x0067),
  ("picture_in_picture_swap", 0x0068), ("red_menu_button", 0x0069), ("green_menu_button", 0x006a),
  ("blue_menu_button", 0x006b), ("yellow_menu_button", 0x006c), ("aspect", 0x006d),
  ("three_dimensional_mode_select", 0x006e), ("display_brightness_increment", 0x006f),
  ("display_brightness_decrement", 0x0070), ("selection", 0x0080), ("fast_forward", 0x00b3),
  ("rewind", 0x00b4), ("scan_next_track", 0x00b5), ("scan_previous_track", 0x00b6),
  ("stop", 0x00b7), ("eject", 0x00b8), ("play_or_pause", 0x00cd), ("voice_command", 0x00cf),
  ("mute", 0x00e2), ("bass_boost", 0x00e5), ("loudness", 0x00e7), ("volume_increment", 0x00e9),
  ("volume_decrement", 0x00ea), ("bass_increment", 0x0152), ("bass_decrement", 0x0153),
  ("al_consumer_control_configuration", 0x0183), ("al_word_processor", 0x0184),
  ("al_text_editor", 0x0185), ("al_spreadsheet", 0x0186), ("al_graphics_editor", 0x0187),
  ("al_presentation_app", 0x0188), ("al_database_app", 0x0189), ("al_email_reader", 0x018a),
  ("al_newsreader", 0x018b), ("al_voicemail", 0x018c), ("al_contacts_or_address_book", 0x018d),
  ("al_Calendar_Or_Schedule", 0x018E), ("al_task_or_project_manager", 0x018f),
  ("al_log_or_journal_or_timecard", 0x0190), ("al_checkbook_or_finance", 0x0191),
  ("al_calculator", 0x0192), ("al_a_or_v_capture_or_playback", 0x0193),
  ("al_local_machine_browser", 0x0194), ("al_lan_or_wan_browser", 0x0195),
  ("al_internet_browser", 0x0196), ("al_remote_networking_or_isp_connect", 0x0197),
  ("al_network_conference", 0x0198), ("al_network_chat", 0x0199),
  ("al_telephony_or_dialer", 0x019a), ("al_logon", 0x019b), ("al_logoff", 0x019c),
  ("al_logon_or_logoff", 0x019d), ("al_terminal_lock_or_screensaver", 0x019e),
  ("al_control_panel", 0x019f), ("al_command_line_processor_or_run", 0x01a0),
  ("al_process_or_task_manager", 0x01a1), ("al_select_task_or_application", 0x01a2),
  ("al_next_task_or_application", 0x01a3), ("al_previous_task_or_application", 0x01a4),
  ("al_preemptive_halt_task_or_application", 0x01a5), ("al_integrated_help_center", 0x01a6),
  ("al_documents", 0x01a7), ("al_thesaurus", 0x01a8), ("al_dictionary", 0x01a9),
  ("al_desktop", 0x01aa), ("al_spell_check", 0x01ab), ("al_grammer_check", 0x01ac),
  ("al_wireless_status", 0x01ad), ("al_keyboard_layout", 0x01ae), ("al_virus_protection", 0x01af),
  ("al_encryption", 0x01b0), ("al_screen_saver", 0x01b1), ("al_alarms", 0x01b2),
  ("al_clock", 0x01b3), ("al_file_browser", 0x01b4), ("al_power_status", 0x01b5),
  ("al_image_browser", 0x01b6), ("al_audio_browser", 0x01b7), ("al_movie_browser", 0x01b8),
  ("al_digital_rights_manager", 0x01b9), ("al_digital_wallet", 0x01ba),
  ("al_instant_messaging", 0x01bc), ("al_oem_feature_browser", 0x01bd), ("al_oem_help", 0x01be),
  ("al_online_community", 0x01bf), ("al_entertainment_content_browser", 0x01c0),
  ("al_online_shopping_browswer", 0x01c1), ("al_smart_card_information_or_help", 0x01c2),
  ("al_market_monitor_or_finance_browser", 0x01c3),
  ("al_customized_corporate_news_browser", 0x01c4), ("al_online_activity_browswer", 0x01c5),
  ("al_research_or_search_browswer", 0x01c6), ("al_audio_player", 0x01c7),
  ("al_message_status", 0x01c8), ("al_contact_sync", 0x01c9), ("al_navigation", 0x01ca),
  ("al_contextaware_desktop_assistant", 0x01cb), ("ac_search", 0x0221), ("ac_home", 0x0223),
  ("ac_back", 0x0224), ("ac_forward", 0x0225), ("ac_refresh", 0x0227), ("ac_bookmarks", 0x022a),
  ("ac_zoom_out", 0x22d), ("ac_zoom_in", 0x22e), ("fastforward", 0x00b3)]

/-- `apple_vendor_keyboard_key_code::name_value_pairs`. -/
def appleVendorKeyboardKeyCodeNameValuePairs : List (String × ℤ) := [
  ("mission_control", 0x0010), ("spotlight", 0x0001), ("dashboard", 0x0002), ("function", 0x0003),
  ("launchpad", 0x0004), ("expose_all", 0x0010), ("expose_desktop", 0x0011),
  ("brightness_up", 0x0020), ("brightness_down", 0x0021), ("language", 0x0030)]

/-- `apple_vendor_top_case_key_code::name_value_pairs`. -/
def appleVendorTopCaseKeyCodeNameValuePairs : List (String × ℤ) := [
  ("keyboard_fn", 0x0003), ("brightness_up", 0x0004), ("brightness_down", 0x0005),
  ("video_mirror", 0x0006), ("illumination_toggle", 0x0007), ("illumination_up", 0x0008),
  ("illumination_down", 0x0009)]

/-- `generic_desktop::name_value_pairs`. -/
def genericDesktopNameValuePairs : List (String × ℤ) := [
  ("system_sleep", 0x82), ("system_app_menu", 0x86), ("dpad_up", 0x90), ("dpad_down", 0x91),
  ("dpad_right", 0x92), ("dpad_left", 0x93)]

/-- `impl::find_pair` finds the usage in a table. -/
def listed (nameValuePairs : List (String × ℤ)) (usage : ℤ) : Bool :=
  nameValuePairs.any fun pair => pair.2 = usage

/-- `momentary_switch_event::target`, the disjunction of the six `target` functions. -/
def target (usagePage usage : ℤ) : Bool :=
  -- key_code
  (usagePage = UsagePage.keyboardOrKeypad && Usage.KeyboardOrKeypad.keyboardA ≤ usage &&
    usage < Usage.KeyboardOrKeypad.reserved) ||
  -- consumer_key_code
  (usagePage = UsagePage.consumer && listed consumerKeyCodeNameValuePairs usage) ||
  -- apple_vendor_keyboard_key_code
  (usagePage = UsagePage.appleVendorKeyboard &&
    listed appleVendorKeyboardKeyCodeNameValuePairs usage) ||
  -- apple_vendor_top_case_key_code
  (usagePage = UsagePage.appleVendorTopCase &&
    listed appleVendorTopCaseKeyCodeNameValuePairs usage) ||
  -- pointing_button
  usagePage = UsagePage.button ||
  -- generic_desktop
  (usagePage = UsagePage.genericDesktop && listed genericDesktopNameValuePairs usage)

end MomentarySwitchEvent

end Karabiner
